import IGhostVT.Lib.LittleEndian

/-!
# Lib/Format — what stands at the front of a byte string

A `Format` writes values and reads one off the front of a byte string, exactly where it stands
written there.  Byte strings of a fixed length, or behind their length, are formats; formats follow
each other (`Format.prod`), and a byte string is read as a list of values to its end (`Format.all`).
-/

/-! ## Numbers, high byte first -/

def beBytes (k n : ℕ) : List UInt8 := (leBytes k n).reverse

def beValue (bs : List UInt8) : ℕ := leValue bs.reverse

@[simp] theorem length_beBytes (k n : ℕ) : (beBytes k n).length = k := by
  rw [beBytes, List.length_reverse, length_leBytes]

theorem beValue_lt (bs : List UInt8) : beValue bs < 256 ^ bs.length := by
  rw [← List.length_reverse]
  exact leValue_lt bs.reverse

theorem beValue_beBytes {k n : ℕ} (h : n < 256 ^ k) : beValue (beBytes k n) = n := by
  rw [beValue, beBytes, List.reverse_reverse, leValue_leBytes h]

theorem beBytes_beValue (bs : List UInt8) : beBytes bs.length (beValue bs) = bs := by
  rw [beBytes, beValue, ← List.length_reverse, leBytes_leValue, List.reverse_reverse]

/-! ## Formats -/

/-- A way to write values that can be read back whatever follows. -/
structure Format (α : Type) where
  encode : α → List UInt8
  split : List UInt8 → Option (α × List UInt8)
  split_iff : ∀ {bs a rest}, split bs = some (a, rest) ↔ bs = encode a ++ rest

namespace Format

variable {α β : Type}

theorem split_append (F : Format α) (a : α) (rest : List UInt8) :
    F.split (F.encode a ++ rest) = some (a, rest) := F.split_iff.mpr rfl

/-- One value behind another. -/
def prod (F : Format α) (G : Format β) : Format (α × β) where
  encode v := F.encode v.1 ++ G.encode v.2
  split bs := (F.split bs).bind fun (a, bs) => (G.split bs).map fun (b, bs) => ((a, b), bs)
  split_iff {bs v rest} := by
    rw [Option.bind_eq_some_iff]
    constructor
    · rintro ⟨⟨a, bs'⟩, ha, hb⟩
      obtain ⟨⟨b, bs''⟩, hb, heq⟩ := Option.map_eq_some_iff.mp hb
      cases heq
      rw [F.split_iff.mp ha, G.split_iff.mp hb, List.append_assoc]
    · intro h
      rw [List.append_assoc] at h
      exact ⟨_, F.split_iff.mpr h, by dsimp only; rw [G.split_append]; rfl⟩

/-- The same bytes for other values. -/
def map (F : Format α) (e : α ≃ β) : Format β where
  encode b := F.encode (e.symm b)
  split bs := (F.split bs).map fun (a, rest) => (e a, rest)
  split_iff {bs b rest} := by
    rw [Option.map_eq_some_iff]
    constructor
    · rintro ⟨⟨a, rest'⟩, ha, heq⟩
      cases heq
      rw [Equiv.symm_apply_apply]
      exact F.split_iff.mp ha
    · intro h
      exact ⟨_, F.split_iff.mpr h, by dsimp only; rw [Equiv.apply_symm_apply]⟩

/-- A byte string of a fixed length. -/
def fixed (n : ℕ) : Format { bs : List UInt8 // bs.length = n } where
  encode bs := bs
  split bs :=
    if h : n ≤ bs.length then some (⟨bs.take n, List.length_take_of_le h⟩, bs.drop n) else none
  split_iff {bs a rest} := by
    constructor
    · intro h
      split at h
      · cases h
        exact (List.take_append_drop n bs).symm
      · cases h
    · rintro rfl
      have hle : n ≤ (a.1 ++ rest).length := by
        rw [List.length_append, a.2]
        omega
      rw [dif_pos hle]
      refine congrArg some (Prod.ext (Subtype.ext ?_) ?_)
      · exact List.take_left' a.2
      · exact List.drop_left' a.2

/-- A byte string whose length fits `k` bytes. -/
abbrev Short (k : ℕ) : Type := { bs : List UInt8 // bs.length < 256 ^ k }

/-- A byte string behind its length. -/
def short (k : ℕ) : Format (Short k) where
  encode bs := beBytes k bs.1.length ++ bs.1
  split bs :=
    if h : k ≤ bs.length ∧ beValue (bs.take k) ≤ bs.length - k then
      some (⟨(bs.drop k).take (beValue (bs.take k)), by
        have hlt := beValue_lt (bs.take k)
        rw [List.length_take_of_le h.1] at hlt
        rw [List.length_take]
        omega⟩, (bs.drop k).drop (beValue (bs.take k)))
    else none
  split_iff {bs a rest} := by
    constructor
    · intro h
      split at h
      case isTrue hle =>
        cases h
        dsimp only
        have hlength : ((bs.drop k).take (beValue (bs.take k))).length = beValue (bs.take k) := by
          rw [List.length_take_of_le]
          rw [List.length_drop]
          exact hle.2
        have hcount : beBytes k (beValue (bs.take k)) = bs.take k := by
          have h := beBytes_beValue (bs.take k)
          rwa [List.length_take_of_le hle.1] at h
        rw [hlength, hcount, List.append_assoc, List.take_append_drop, List.take_append_drop]
      case isFalse => cases h
    · rintro rfl
      rw [List.append_assoc]
      have htake : (beBytes k a.1.length ++ (a.1 ++ rest)).take k = beBytes k a.1.length :=
        List.take_left' (length_beBytes k _)
      have hdrop : (beBytes k a.1.length ++ (a.1 ++ rest)).drop k = a.1 ++ rest :=
        List.drop_left' (length_beBytes k _)
      have hvalue : beValue (beBytes k a.1.length) = a.1.length := beValue_beBytes a.2
      rw [dif_pos ⟨by simp, by rw [htake, hvalue]; simp⟩]
      refine congrArg some (Prod.ext (Subtype.ext ?_) ?_)
      · dsimp only
        rw [htake, hdrop, hvalue, List.take_left]
      · dsimp only
        rw [htake, hdrop, hvalue, List.drop_left]

theorem prod_split_eq_some {F : Format α} {G : Format β} {bs rest : List UInt8} {v : α × β}
    (h : (F.prod G).split bs = some (v, rest)) :
    ∃ bs', F.split bs = some (v.1, bs') ∧ G.split bs' = some (v.2, rest) := by
  obtain rfl := (F.prod G).split_iff.mp h
  refine ⟨G.encode v.2 ++ rest, ?_, G.split_append _ _⟩
  rw [prod, List.append_assoc]
  exact F.split_append _ _

/-- What stands behind a value. -/
def skip (F : Format α) (bs : List UInt8) : Option (List UInt8) := (F.split bs).map Prod.snd

/-- What is behind a pair is behind the second of it. -/
theorem skip_prod (F : Format α) (G : Format β) (bs : List UInt8) :
    (F.prod G).skip bs = (F.skip bs).bind G.skip := by
  rw [skip, skip, prod]
  dsimp only
  cases F.split bs with
  | none => rfl
  | some v => cases hb : G.split v.2 <;> simp [skip, hb]

/-- A length is read, and as many bytes behind it. -/
theorem short_split_eq (k : ℕ) (bs : List UInt8) :
    ((short k).split bs).map (fun p => (p.1.1, p.2)) =
      ((fixed k).split bs).bind fun c => ((fixed (beValue c.1.1)).split c.2).map fun p =>
        (p.1.1, p.2) := by
  rw [short, fixed]
  dsimp only
  by_cases hk : k ≤ bs.length
  · rw [dif_pos hk, Option.bind_some, fixed]
    dsimp only
    have hlength : (bs.drop k).length = bs.length - k := List.length_drop
    by_cases hn : beValue (bs.take k) ≤ (bs.drop k).length
    · rw [dif_pos ⟨hk, hlength ▸ hn⟩, dif_pos hn]
      rfl
    · rw [dif_neg fun h => hn (hlength ▸ h.2), dif_neg hn]
      rfl
  · rw [dif_neg fun h => hk h.1, dif_neg hk]
    rfl

theorem short_split_length {k : ℕ} {bs rest : List UInt8} {x : Short k}
    (h : (short k).split bs = some (x, rest)) :
    ∃ c rest', (fixed k).split bs = some (c, rest') ∧ beValue c.1 = x.1.length := by
  obtain rfl := (short k).split_iff.mp h
  refine ⟨⟨beBytes k x.1.length, length_beBytes _ _⟩, x.1 ++ rest, ?_, beValue_beBytes x.2⟩
  rw [short, List.append_assoc]
  exact (fixed k).split_append ⟨beBytes k x.1.length, length_beBytes _ _⟩ (x.1 ++ rest)

theorem length_rest_lt (F : Format α) (hne : ∀ a, F.encode a ≠ []) {bs rest : List UInt8} {a : α}
    (h : F.split bs = some (a, rest)) : rest.length < bs.length := by
  have hpos := List.length_pos_iff.mpr (hne a)
  rw [F.split_iff.mp h, List.length_append]
  omega

/-- A list of values, one behind another. -/
def encodeAll (F : Format α) (as : List α) : List UInt8 := as.flatMap F.encode

@[simp] theorem encodeAll_nil (F : Format α) : F.encodeAll [] = [] := rfl

@[simp] theorem encodeAll_cons (F : Format α) (a : α) (as : List α) :
    F.encodeAll (a :: as) = F.encode a ++ F.encodeAll as := List.flatMap_cons

/-- Nothing is a list of no values. -/
theorem exists_encodeAll_nil (F : Format α) (hne : ∀ a, F.encode a ≠ []) {p : List α → Prop} :
    (∃ as, [] = F.encodeAll as ∧ p as) ↔ p [] := by
  constructor
  · rintro ⟨_ | ⟨a, as⟩, heq, h⟩
    · exact h
    · exact absurd (List.append_eq_nil_iff.mp heq.symm).1 (hne a)
  · exact fun h => ⟨[], rfl, h⟩

/-- A byte string that is a list of values begins with the first of them… -/
theorem exists_encodeAll_cons (F : Format α) {bs rest : List UInt8} (hbs : bs ≠ []) {a : α}
    (hsplit : F.split bs = some (a, rest)) {p : List α → Prop} :
    (∃ as, bs = F.encodeAll as ∧ p as) ↔ ∃ as, rest = F.encodeAll as ∧ p (a :: as) := by
  constructor
  · rintro ⟨_ | ⟨b, as⟩, rfl, h⟩
    · exact absurd rfl hbs
    · rw [encodeAll_cons, F.split_append] at hsplit
      cases hsplit
      exact ⟨as, rfl, h⟩
  · rintro ⟨as, rfl, h⟩
    exact ⟨a :: as, F.split_iff.mp hsplit, h⟩

/-- …and is none where no value stands. -/
theorem not_exists_encodeAll (F : Format α) {bs : List UInt8} (hbs : bs ≠ [])
    (hsplit : F.split bs = none) {p : List α → Prop} : ¬ ∃ as, bs = F.encodeAll as ∧ p as := by
  rintro ⟨_ | ⟨a, as⟩, rfl, -⟩
  · exact hbs rfl
  · rw [encodeAll_cons, F.split_append] at hsplit
    cases hsplit

end Format
