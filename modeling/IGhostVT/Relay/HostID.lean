import IGhostVT.Relay.ClientHelloGrammar

/-!
# Relay/HostID — which bytes name which host

A record's bytes name a host exactly where the grammar says so, in the case it was spelled in or
another (`hostID_exact`), and a record is read off a stream whole and alone, however its bytes
arrive.
-/

namespace ClientHello

open Format

/-! ## Lower case -/

/-- What a UUID is spelled with. -/
def Spells (c : UInt8) : Prop :=
  c = 0x2D ∨ 0x30 ≤ c ∧ c ≤ 0x39 ∨ 0x61 ≤ c ∧ c ≤ 0x66 ∨ 0x41 ≤ c ∧ c ≤ 0x46

theorem Spells.lt {c : UInt8} (h : Spells c) : c < 0x80 := by
  rw [Spells] at h
  grind

theorem spells_of_isUUID {s : List UInt8} (h : isUUID s = true) {c : UInt8} (hc : c ∈ s) :
    Spells c := by
  obtain ⟨-, hall⟩ := of_decide_eq_true h
  obtain ⟨i, hi⟩ := List.mem_iff_getElem?.mp hc
  have hpair := List.all_eq_true.mp hall (c, i) (List.mk_mem_zipIdx_iff_getElem?.mpr hi)
  dsimp only at hpair
  split at hpair
  · exact .inl (of_decide_eq_true hpair)
  · exact .inr (of_decide_eq_true hpair)

/-- Case makes no difference to a spelling. -/
theorem isUUID_lower (s : List UInt8) : isUUID (s.map lowerByte) = isUUID s := by
  have hdash : ∀ c : UInt8, lowerByte c = 0x2D ↔ c = 0x2D := by
    intro c
    unfold lowerByte
    split <;> grind
  have hdigit : ∀ c : UInt8, (0x30 ≤ lowerByte c ∧ lowerByte c ≤ 0x39 ∨
      0x61 ≤ lowerByte c ∧ lowerByte c ≤ 0x66 ∨ 0x41 ≤ lowerByte c ∧ lowerByte c ≤ 0x46) ↔
      (0x30 ≤ c ∧ c ≤ 0x39 ∨ 0x61 ≤ c ∧ c ≤ 0x66 ∨ 0x41 ≤ c ∧ c ≤ 0x46) := by
    intro c
    unfold lowerByte
    split <;> grind
  unfold isUUID
  rw [List.length_map, List.zipIdx_map, List.all_map]
  simp only [Function.comp_def, Prod.map, id, hdash, hdigit]

/-- No letter beyond ASCII is a hex digit's, or a dash's, other case. -/
def KeepsForeign (lowerRune : ℕ → ℕ) : Prop :=
  ∀ r, 0x80 ≤ r → ∀ c, Spells c → lowerRune r ≠ c.toNat

/-- A byte beyond ASCII begins no ASCII rune. -/
theorem decodeRune_foreign {b : UInt8} (hb : ¬ b < 0x80) (bs : List UInt8) :
    0x80 ≤ (decodeRune b bs).1 := by
  have hnone : 0x80 ≤ ((0xFFFD, 1) : ℕ × ℕ).1 := by decide
  have hite : ∀ {c : Prop} [Decidable c] {x y : ℕ × ℕ}, (c → 0x80 ≤ x.1) → 0x80 ≤ y.1 →
      0x80 ≤ (if c then x else y).1 := by
    intro c _ x y hx hy
    split
    exacts [hx ‹_›, hy]
  unfold decodeRune
  rw [if_neg hb]
  rcases bs with _ | ⟨c₁, bs⟩
  · exact hnone
  refine hite (fun h => ?_) ?_
  · have hlead := UInt8.le_iff_toNat_le.mp h.1
    simp only [UInt8.reduceToNat] at hlead ⊢
    omega
  rcases bs with _ | ⟨c₂, bs⟩
  · exact hnone
  refine hite (fun h => ?_) ?_
  · -- The shortest spelling of a rune is the only one.
    obtain ⟨hlead, -, hsecond, -⟩ := h
    by_cases hfirst : b = 0xE0
    · subst hfirst
      have hlo := UInt8.le_iff_toNat_le.mp (of_decide_eq_true hsecond).1
      simp only [if_true, UInt8.reduceToNat] at hlo ⊢
      omega
    · have hne : b.toNat ≠ 0xE0 := fun h => hfirst (UInt8.toNat_inj.mp h)
      have hle := UInt8.le_iff_toNat_le.mp hlead
      simp only [UInt8.reduceToNat] at hle ⊢
      omega
  rcases bs with _ | ⟨c₃, bs⟩
  · exact hnone
  refine hite (fun h => ?_) hnone
  obtain ⟨hlead, -, hsecond, -⟩ := h
  by_cases hfirst : b = 0xF0
  · subst hfirst
    have hlo := UInt8.le_iff_toNat_le.mp (of_decide_eq_true hsecond).1
    simp only [if_true, UInt8.reduceToNat] at hlo ⊢
    omega
  · have hne : b.toNat ≠ 0xF0 := fun h => hfirst (UInt8.toNat_inj.mp h)
    have hle := UInt8.le_iff_toNat_le.mp hlead
    simp only [UInt8.reduceToNat] at hle ⊢
    omega

theorem exists_rune : ∀ (fuel : ℕ) (s : List UInt8), s.length ≤ fuel →
    s.all (· < 0x80) = false → ∃ r ∈ runes fuel s, 0x80 ≤ r := by
  intro fuel
  induction fuel with
  | zero =>
    intro s hs hall
    rw [List.length_eq_zero_iff.mp (Nat.le_zero.mp hs)] at hall
    cases hall
  | succ fuel ih =>
    intro s hs hall
    cases s with
    | nil => cases hall
    | cons b bs =>
      by_cases hb : b < 0x80
      · have hone : decodeRune b bs = (b.toNat, 1) := if_pos hb
        rw [List.all_cons, decide_eq_true hb, Bool.true_and] at hall
        obtain ⟨r, hr, hle⟩ := ih bs (Nat.le_of_succ_le_succ hs) hall
        refine ⟨r, ?_, hle⟩
        rw [runes, hone]
        exact List.mem_cons_of_mem _ hr
      · exact ⟨_, List.mem_cons_self, decodeRune_foreign hb bs⟩

/-- What a rune beyond ASCII is written with spells no UUID. -/
theorem exists_encodeRune {lowerRune : ℕ → ℕ} (hlower : KeepsForeign lowerRune) {r : ℕ}
    (hr : 0x80 ≤ r) : ∃ c ∈ encodeRune (lowerRune r), ¬ Spells c := by
  have hforeign : ∀ n : ℕ, 0x80 ≤ n → n < 256 → ¬ Spells (UInt8.ofNat n) := by
    intro n hlo hhi h
    have hlt := UInt8.lt_iff_toNat_lt.mp h.lt
    rw [UInt8.toNat_ofNat_of_lt' hhi] at hlt
    exact absurd hlt (by simpa using hlo)
  generalize hx : lowerRune r = x
  unfold encodeRune
  split_ifs with h₁ h₂ h₃ h₄
  · refine ⟨_, List.mem_singleton_self _, fun hspells => hlower r hr _ hspells ?_⟩
    rw [hx, UInt8.toNat_ofNat_of_lt' (by change x < 256; omega)]
  · exact ⟨_, List.mem_cons_self, hforeign _ (by omega) (by omega)⟩
  · exact ⟨_, List.mem_cons_self, hforeign 0xEF (by omega) (by omega)⟩
  · exact ⟨_, List.mem_cons_self, hforeign _ (by omega) (by omega)⟩
  · exact ⟨_, List.mem_cons_self, hforeign _ (by omega) (by omega)⟩

/-- A host id in either case is one in lower case, and nothing else becomes one. -/
theorem isUUID_toLower {lowerRune : ℕ → ℕ} (hlower : KeepsForeign lowerRune) {s id : List UInt8} :
    toLower lowerRune s = id ∧ isUUID id = true ↔ isUUID s = true ∧ s.map lowerByte = id := by
  cases hall : s.all (· < 0x80)
  · have hnot : ¬ isUUID s = true := fun h => by
      have htrue : s.all (· < 0x80) = true :=
        List.all_eq_true.mpr fun c hc => decide_eq_true (spells_of_isUUID h hc).lt
      rw [hall] at htrue
      cases htrue
    refine ⟨?_, fun h => absurd h.1 hnot⟩
    rintro ⟨rfl, h⟩
    exfalso
    obtain ⟨r, hr, hle⟩ := exists_rune s.length s le_rfl hall
    obtain ⟨c, hc, hspells⟩ := exists_encodeRune hlower hle
    refine hspells (spells_of_isUUID h ?_)
    rw [toLower, if_neg (by rw [hall]; decide)]
    exact List.mem_flatMap.mpr ⟨r, hr, hc⟩
  · have hlowered : toLower lowerRune s = s.map lowerByte := if_pos hall
    rw [hlowered]
    constructor
    · rintro ⟨rfl, h⟩
      exact ⟨by rwa [isUUID_lower] at h, rfl⟩
    · rintro ⟨h, rfl⟩
      exact ⟨rfl, by rwa [isUUID_lower]⟩

/-! ## Records -/

/-- A handshake record with a whole ClientHello at the front of its body. -/
structure HelloRecord where
  version : { bs : List UInt8 // bs.length = 2 }
  hello : Hello
  /-- What stands behind the ClientHello. -/
  after : List UInt8
  fits : 4 + hello.encode.length + after.length ≤ maxRecord

namespace HelloRecord

def body (r : HelloRecord) : List UInt8 :=
  handshakeHello :: (beBytes 3 r.hello.encode.length ++ (r.hello.encode ++ r.after))

def encode (r : HelloRecord) : List UInt8 :=
  recordHandshake :: (r.version.1 ++ (beBytes 2 r.body.length ++ r.body))

end HelloRecord

/-- The one host name of a hello, its trailing dot removed, is a UUID, and `id` is its lower
case. -/
def Hello.NamesID (h : Hello) (id : List UInt8) : Prop :=
  ∃ name, h.NamesHost name ∧ isUUID (trimDot name) = true ∧ (trimDot name).map lowerByte = id

theorem uint16_pair (a b : UInt8) : uint16 [a, b] = some (beValue [a, b] : ℤ) := by
  simp [uint16, Checked.get, beValue, leValue]
  ring

/-- Bytes are a number's when they are as many and of its value. -/
theorem beBytes_eq_iff {k n : ℕ} {bs : List UInt8} (hlength : bs.length = k) (hn : n < 256 ^ k) :
    bs = beBytes k n ↔ beValue bs = n := by
  constructor
  · rintro rfl
    exact beValue_beBytes hn
  · rintro rfl
    rw [← hlength, beBytes_beValue]

theorem HelloRecord.length_body (r : HelloRecord) :
    r.body.length = 4 + r.hello.encode.length + r.after.length := by
  simp only [body, List.length_cons, List.length_append, length_beBytes]
  omega

/-- The bytes of a record, taken apart. -/
theorem HelloRecord.exists_encode {b v₁ v₂ l₁ l₂ : UInt8} {bytes : List UInt8} {p : Hello → Prop} :
    (∃ r : HelloRecord, b :: v₁ :: v₂ :: l₁ :: l₂ :: bytes = r.encode ∧ p r.hello) ↔
      b = recordHandshake ∧ beValue [l₁, l₂] = bytes.length ∧ bytes.length ≤ maxRecord ∧
        ∃ (hello : Hello) (after : List UInt8), p hello ∧
          bytes = handshakeHello :: (beBytes 3 hello.encode.length ++ (hello.encode ++ after)) := by
  constructor
  · rintro ⟨r, heq, hp⟩
    obtain ⟨x, y, hversion⟩ := List.length_eq_two.mp r.version.2
    have hfits : r.body.length ≤ maxRecord := r.length_body ▸ r.fits
    rw [encode, hversion] at heq
    simp only [List.cons_append, List.nil_append, List.cons.injEq] at heq
    obtain ⟨rfl, rfl, rfl, hrest⟩ := heq
    obtain ⟨hcount, rfl⟩ := @List.append_inj _ [l₁, l₂] _ _ _ hrest (length_beBytes 2 _).symm
    refine ⟨rfl, ?_, hfits, r.hello, r.after, hp, rfl⟩
    rw [hcount, beValue_beBytes (lt_of_le_of_lt hfits (by decide))]
  · rintro ⟨rfl, hcount, hfits, hello, after, hp, rfl⟩
    have hlt := lt_of_le_of_lt hfits (by decide : maxRecord < 256 ^ 2)
    refine ⟨⟨⟨[v₁, v₂], rfl⟩, hello, after, ?_⟩, ?_, hp⟩
    · simp only [List.length_cons, List.length_append, length_beBytes] at hfits
      omega
    · have hlength := (@beBytes_eq_iff 2 _ [l₁, l₂] rfl hlt).mpr hcount
      exact congrArg (fun l => recordHandshake :: ([v₁, v₂] ++ (l ++ _))) hlength

/-- The body of a record, taken apart. -/
theorem exists_hello_body {b n₁ n₂ n₃ : UInt8} {rest : List UInt8} {p : Hello → Prop}
    (hrest : rest.length < 256 ^ 3) :
    (∃ (hello : Hello) (after : List UInt8), p hello ∧ b :: n₁ :: n₂ :: n₃ :: rest
        = handshakeHello :: (beBytes 3 hello.encode.length ++ (hello.encode ++ after))) ↔
      b = handshakeHello ∧ beValue [n₁, n₂, n₃] ≤ rest.length ∧
        ∃ hello : Hello, rest.take (beValue [n₁, n₂, n₃]) = hello.encode ∧ p hello := by
  constructor
  · rintro ⟨hello, after, hp, heq⟩
    obtain ⟨rfl, htail⟩ := List.cons.inj heq
    obtain ⟨hcount, rfl⟩ := @List.append_inj _ [n₁, n₂, n₃] _ _ _ htail (length_beBytes 3 _).symm
    rw [List.length_append] at hrest
    have hvalue := (beBytes_eq_iff rfl (lt_of_le_of_lt (Nat.le_add_right _ _) hrest)).mp hcount
    refine ⟨rfl, ?_, hello, ?_, hp⟩
    · rw [hvalue, List.length_append]
      omega
    · rw [hvalue, List.take_left]
  · rintro ⟨rfl, hle, hello, htake, hp⟩
    have hvalue : beValue [n₁, n₂, n₃] = hello.encode.length := by
      rw [← htake, List.length_take_of_le hle]
    refine ⟨hello, rest.drop (beValue [n₁, n₂, n₃]), hp, ?_⟩
    have hcount := (@beBytes_eq_iff 3 _ [n₁, n₂, n₃] rfl (by omega)).mpr hvalue
    rw [← htake, List.take_append_drop, htake, ← hcount]
    rfl

/-- What the body of a record comes to. -/
theorem body_decides {lowerRune : ℕ → ℕ} (hlower : KeepsForeign lowerRune) {body : List UInt8}
    (hfits : body.length ≤ maxRecord) : Decides (
      if body.length < 4 then return .error .notHello
      else do
        if (← Checked.get body 0) ≠ handshakeHello then return .error .notHello
        else
          let b₁ ← Checked.get body 1
          let b₂ ← Checked.get body 2
          let b₃ ← Checked.get body 3
          let n : ℤ := b₁.toNat * 65536 + b₂.toNat * 256 + b₃.toNat
          if n > body.length - 4 then return .error .spansRecords
          else
            match ← serverName (← Checked.slice body 4 (4 + n)) with
            | .error e => return .error e
            | .ok name =>
              let name := toLower lowerRune (trimDot name)
              if ¬ isUUID name then return .error .notHostID
              else return .ok name) fun id =>
        ∃ (hello : Hello) (after : List UInt8), hello.NamesID id ∧
          body = handshakeHello :: (beBytes 3 hello.encode.length ++ (hello.encode ++ after)) := by
  by_cases hshort : body.length < 4
  · rw [if_pos hshort]
    refine decides_error ?_
    rintro id ⟨hello, after, -, rfl⟩
    simp only [List.length_cons, List.length_append, length_beBytes] at hshort
    omega
  rw [if_neg hshort]
  obtain ⟨b, n₁, n₂, n₃, rest, rfl⟩ : ∃ b n₁ n₂ n₃ rest, body = b :: n₁ :: n₂ :: n₃ :: rest := by
    rcases body with _ | ⟨b, _ | ⟨n₁, _ | ⟨n₂, _ | ⟨n₃, rest⟩⟩⟩⟩
    all_goals first
      | exact ⟨_, _, _, _, _, rfl⟩
      | exact absurd (by simp) hshort
  have hrest : rest.length < 256 ^ 3 :=
    lt_of_le_of_lt (by simp only [List.length_cons] at hfits; omega)
      (by decide : maxRecord < 256 ^ 3)
  refine Decides.congr ?_ fun id => @exists_hello_body b n₁ n₂ n₃ rest (fun h => h.NamesID id) hrest
  have hget₀ : Checked.get (b :: n₁ :: n₂ :: n₃ :: rest) 0 = some b := rfl
  have hget₁ : Checked.get (b :: n₁ :: n₂ :: n₃ :: rest) 1 = some n₁ := rfl
  have hget₂ : Checked.get (b :: n₁ :: n₂ :: n₃ :: rest) 2 = some n₂ := rfl
  have hget₃ : Checked.get (b :: n₁ :: n₂ :: n₃ :: rest) 3 = some n₃ := rfl
  have hvalue : ((n₁.toNat * 65536 + n₂.toNat * 256 + n₃.toNat : ℤ)) =
      (beValue [n₁, n₂, n₃] : ℕ) := by
    simp [beValue, leValue]
    ring
  simp only [hget₀, hget₁, hget₂, hget₃, hvalue, Option.bind_eq_bind, Option.bind_some]
  generalize beValue [n₁, n₂, n₃] = n
  by_cases hhello : b = handshakeHello
  · rw [if_neg (not_not.mpr hhello)]
    by_cases hspans : n ≤ rest.length
    · have hslice : Checked.slice (b :: n₁ :: n₂ :: n₃ :: rest) 4 (4 + n) = some (rest.take n) := by
        rw [Checked.slice, if_pos (by simp only [List.length_cons]; omega),
          show (4 + (n : ℤ)).toNat = n + 4 by omega]
        rfl
      rw [if_neg (by simp only [List.length_cons]; omega), hslice]
      obtain ⟨result, hresult, hnames⟩ := serverName_decides (rest.take n)
      simp only [Option.bind_some, hresult]
      -- The name the hello has is the one it was read for.
      have hid : ∀ id, (b = handshakeHello ∧ n ≤ rest.length ∧
          ∃ hello : Hello, rest.take n = hello.encode ∧ hello.NamesID id) ↔
            ∃ name, result = .ok name ∧ isUUID (trimDot name) = true ∧
              (trimDot name).map lowerByte = id := by
        intro id
        simp only [hnames]
        constructor
        · rintro ⟨-, -, hello, hencode, name, hname, huuid⟩
          exact ⟨name, ⟨hello, hencode, hname⟩, huuid⟩
        · rintro ⟨name, ⟨hello, hencode, hname⟩, huuid⟩
          exact ⟨hhello, hspans, hello, hencode, name, hname, huuid⟩
      simp only [hid]
      cases result with
      | error e => exact decides_error (by rintro id ⟨_, h, -⟩; cases h)
      | ok name =>
        simp only [Except.ok.injEq, exists_eq_left', ← isUUID_toLower hlower]
        by_cases huuid : isUUID (toLower lowerRune (trimDot name)) = true
        · rw [if_neg (not_not.mpr huuid)]
          refine decides_ok fun id => ⟨And.left, fun h => ⟨h, h ▸ huuid⟩⟩
        · rw [if_pos huuid]
          refine decides_error ?_
          rintro id ⟨rfl, h⟩
          exact huuid h
    · rw [if_pos (by simp only [List.length_cons]; omega)]
      refine decides_error ?_
      rintro id ⟨-, h, -⟩
      exact hspans h
  · rw [if_pos hhello]
    refine decides_error ?_
    rintro id ⟨h, -⟩
    exact hhello h

theorem hostID_decides {lowerRune : ℕ → ℕ} (hlower : KeepsForeign lowerRune) (record : List UInt8) :
    Decides (hostID lowerRune record) fun id =>
      ∃ r : HelloRecord, record = r.encode ∧ r.hello.NamesID id := by
  unfold hostID
  by_cases hshort : record.length < 5
  · rw [if_pos hshort]
    refine decides_error ?_
    rintro id ⟨r, rfl, -⟩
    rw [HelloRecord.encode] at hshort
    simp only [List.length_cons, List.length_append, r.version.2, length_beBytes] at hshort
    omega
  rw [if_neg hshort]
  obtain ⟨b, v₁, v₂, l₁, l₂, body, rfl⟩ : ∃ b v₁ v₂ l₁ l₂ body,
      record = b :: v₁ :: v₂ :: l₁ :: l₂ :: body := by
    rcases record with _ | ⟨b, _ | ⟨v₁, _ | ⟨v₂, _ | ⟨l₁, _ | ⟨l₂, body⟩⟩⟩⟩⟩
    all_goals first
      | exact ⟨_, _, _, _, _, _, rfl⟩
      | exact absurd (by simp) hshort
  refine Decides.congr ?_ fun id =>
    @HelloRecord.exists_encode b v₁ v₂ l₁ l₂ body fun h => h.NamesID id
  have hfirst : Checked.get (b :: v₁ :: v₂ :: l₁ :: l₂ :: body) 0 = some b := rfl
  have hbody : Checked.slice (b :: v₁ :: v₂ :: l₁ :: l₂ :: body) 5
      (b :: v₁ :: v₂ :: l₁ :: l₂ :: body).length = some body := by
    rw [Checked.slice, if_pos (by simp only [List.length_cons]; omega), Int.toNat_natCast,
      List.take_length]
    rfl
  have hlength : Checked.slice (b :: v₁ :: v₂ :: l₁ :: l₂ :: body) 3 5 = some [l₁, l₂] := by
    rw [Checked.slice, if_pos (by simp only [List.length_cons]; omega)]
    rfl
  simp only [hfirst, hbody, hlength, uint16_pair, Option.bind_eq_bind, Option.bind_some]
  by_cases hhandshake : b = recordHandshake
  · rw [if_neg (not_not.mpr hhandshake)]
    by_cases hsize : beValue [l₁, l₂] = body.length ∧ body.length ≤ maxRecord
    · rw [if_neg (by omega)]
      refine (body_decides hlower hsize.2).congr fun id => ?_
      exact ⟨fun h => h.2.2.2, fun h => ⟨hhandshake, hsize.1, hsize.2, h⟩⟩
    · rw [if_pos (by omega)]
      refine decides_error ?_
      rintro id ⟨-, hcount, hfits, -⟩
      exact hsize ⟨hcount, hfits⟩
  · rw [if_pos hhandshake]
    refine decides_error ?_
    rintro id ⟨h, -⟩
    exact hhandshake h

/-! ## Reading a record off a stream -/

/-- As many bytes as are asked for are read, and none behind them. -/
theorem readFull_spec (breaks : Bool) : ∀ (chunks : List (List UInt8)) (some : Bool) (need : ℕ),
    need ≤ chunks.flatten.length →
      ∃ left, readFull breaks some need chunks = (.ok (chunks.flatten.take need), left) ∧
        left.flatten = chunks.flatten.drop need := by
  intro chunks
  induction chunks with
  | nil =>
    intro some need hle
    rw [Nat.le_zero.mp hle]
    exact ⟨[], rfl, rfl⟩
  | cons chunk chunks ih =>
    intro some need hle
    cases need with
    | zero => exact ⟨_, rfl, rfl⟩
    | succ need =>
      rw [List.flatten_cons, List.length_append] at hle
      rw [readFull, List.flatten_cons]
      split
      case isTrue hlong =>
        refine ⟨_, by rw [List.take_append_of_le_length hlong.le], ?_⟩
        rw [List.flatten_cons, List.drop_append_of_le_length hlong.le]
      case isFalse hshort =>
        have hchunk : chunk.length ≤ need + 1 := Nat.le_of_not_lt hshort
        have hneed : need + 1 - chunk.length ≤ chunks.flatten.length :=
          Nat.sub_le_iff_le_add'.mpr hle
        obtain ⟨left, hread, hleft⟩ := ih (some || !chunk.isEmpty) _ hneed
        refine ⟨left, ?_, ?_⟩
        · rw [hread, List.take_append, List.take_of_length_le hchunk]
          rfl
        · rw [hleft, List.drop_append, List.drop_eq_nil_of_le hchunk, List.nil_append]

theorem readFull_short (breaks : Bool) : ∀ (chunks : List (List UInt8)) (some : Bool) (need : ℕ),
    chunks.flatten.length < need →
    ∃ e left, readFull breaks some need chunks = (.error e, left) := by
  intro chunks
  induction chunks with
  | nil =>
    intro some need hlt
    cases need with
    | zero => cases hlt
    | succ need => exact ⟨_, _, rfl⟩
  | cons chunk chunks ih =>
    intro some need hlt
    rw [List.flatten_cons, List.length_append] at hlt
    cases need with
    | zero => cases hlt
    | succ need =>
      rw [readFull, if_neg (by omega)]
      obtain ⟨e, left, hread⟩ := ih (some || !chunk.isEmpty) (need + 1 - chunk.length) (by omega)
      exact ⟨e, left, by rw [hread]; rfl⟩

/-- A handshake record, of the length it states. -/
def IsRecord (record : List UInt8) : Prop :=
  ∃ (version : { bs : List UInt8 // bs.length = 2 }) (body : List UInt8),
    0 < body.length ∧ body.length ≤ maxRecord ∧
      record = recordHandshake :: (version.1 ++ (beBytes 2 body.length ++ body))

/-- The bytes of a stream that begins with a record, taken apart. -/
theorem isRecord_append {b v₁ v₂ l₁ l₂ : UInt8} {bytes record tail : List UInt8} :
    IsRecord record ∧ [b, v₁, v₂, l₁, l₂] ++ bytes = record ++ tail ↔
      b = recordHandshake ∧ 0 < beValue [l₁, l₂] ∧ beValue [l₁, l₂] ≤ maxRecord ∧
        beValue [l₁, l₂] ≤ bytes.length ∧
        [b, v₁, v₂, l₁, l₂] ++ bytes.take (beValue [l₁, l₂]) = record ∧
        bytes.drop (beValue [l₁, l₂]) = tail := by
  constructor
  · rintro ⟨⟨version, body, hpos, hfits, rfl⟩, heq⟩
    obtain ⟨x, y, hversion⟩ := List.length_eq_two.mp version.2
    rw [hversion] at heq ⊢
    simp only [List.cons_append, List.nil_append, List.cons.injEq, List.append_assoc] at heq
    obtain ⟨rfl, rfl, rfl, hrest⟩ := heq
    obtain ⟨hcount, rfl⟩ := @List.append_inj _ [l₁, l₂] _ _ _ hrest (length_beBytes 2 _).symm
    have hlt := lt_of_le_of_lt hfits (by decide : maxRecord < 256 ^ 2)
    have hvalue := (@beBytes_eq_iff 2 _ [l₁, l₂] rfl hlt).mp hcount
    rw [hvalue, List.take_left, List.drop_left, ← hcount]
    refine ⟨rfl, hpos, hfits, ?_, rfl, rfl⟩
    rw [List.length_append]
    exact Nat.le_add_right _ _
  · rintro ⟨rfl, hpos, hfits, hle, rfl, rfl⟩
    have hlength := List.length_take_of_le hle
    have hlt := lt_of_le_of_lt hfits (by decide : maxRecord < 256 ^ 2)
    refine ⟨⟨⟨[v₁, v₂], rfl⟩, bytes.take (beValue [l₁, l₂]), ?_, ?_, ?_⟩, ?_⟩
    · rwa [hlength]
    · rwa [hlength]
    · rw [hlength, ← (@beBytes_eq_iff 2 _ [l₁, l₂] rfl hlt).mpr rfl]
      rfl
    · rw [List.append_assoc, List.take_append_drop]

/-- Where no record is read, none is there. -/
theorem reads_nothing {e : Error} {rest : Stream} {p : List UInt8 → List UInt8 → Prop}
    (h : ∀ record tail, ¬ p record tail) : ∃ result rest',
    some ((Except.error e : Except Error (List UInt8)), rest) = some (result, rest') ∧
      ∀ record tail, (result = .ok record ∧ rest'.bytes = tail) ↔ p record tail := by
  refine ⟨_, _, rfl, fun record tail => ?_⟩
  constructor
  · rintro ⟨hread, -⟩
    cases hread
  · intro hp
    exact absurd hp (h record tail)

theorem readRecord_exact (s : Stream) : ∃ result rest, readRecord s = some (result, rest) ∧
    ∀ record tail, (result = .ok record ∧ rest.bytes = tail) ↔
      IsRecord record ∧ s.bytes = record ++ tail := by
  unfold readRecord
  by_cases hheader : s.bytes.length < 5
  · obtain ⟨e, left, hread⟩ := readFull_short s.breaks s.chunks false 5 hheader
    rw [hread]
    refine reads_nothing fun record tail h => ?_
    obtain ⟨⟨version, body, -, -, rfl⟩, hbytes⟩ := h
    rw [hbytes] at hheader
    simp only [List.length_append, List.length_cons, version.2, length_beBytes] at hheader
    omega
  · obtain ⟨left, hread, hleft⟩ :=
      readFull_spec s.breaks s.chunks false 5 (Nat.le_of_not_lt hheader)
    have hsplit : s.bytes = s.bytes.take 5 ++ left.flatten := by
      rw [hleft, Stream.bytes, List.take_append_drop]
    have hlength := List.length_take_of_le (Nat.le_of_not_lt hheader)
    rw [hread, ← Stream.bytes, hsplit, List.take_left' hlength]
    generalize s.bytes.take 5 = header at hlength
    obtain ⟨b, v₁, v₂, l₁, l₂, rfl⟩ : ∃ b v₁ v₂ l₁ l₂, header = [b, v₁, v₂, l₁, l₂] := by
      rcases header with _ | ⟨b, _ | ⟨v₁, _ | ⟨v₂, _ | ⟨l₁, _ | ⟨l₂, _ | ⟨x, bs⟩⟩⟩⟩⟩⟩
      case cons.cons.cons.cons.cons.nil => exact ⟨_, _, _, _, _, rfl⟩
      all_goals exact absurd hlength (by simp)
    have hfirst : Checked.get [b, v₁, v₂, l₁, l₂] 0 = some b := rfl
    have hslice : Checked.slice [b, v₁, v₂, l₁, l₂] 3 5 = some [l₁, l₂] := rfl
    simp only [hfirst, hslice, uint16_pair, Option.bind_eq_bind, Option.bind_some]
    simp only [isRecord_append]
    generalize beValue [l₁, l₂] = n
    by_cases hhandshake : b = recordHandshake
    · rw [if_neg (not_not.mpr hhandshake)]
      by_cases hsize : 0 < n ∧ n ≤ maxRecord
      · rw [if_neg (by omega), Int.toNat_natCast]
        by_cases hbody : n ≤ left.flatten.length
        · obtain ⟨rest, hbodyRead, hrest⟩ := readFull_spec s.breaks left false n hbody
          rw [hbodyRead]
          refine ⟨_, _, rfl, fun record tail => ?_⟩
          simp only [Except.ok.injEq, Stream.bytes, hrest, hhandshake, hsize.1, hsize.2, hbody,
            true_and]
        · obtain ⟨e, rest, hbodyRead⟩ :=
            readFull_short s.breaks left false n (Nat.lt_of_not_le hbody)
          rw [hbodyRead]
          exact reads_nothing fun record tail h => hbody h.2.2.2.1
      · rw [if_pos (by omega)]
        exact reads_nothing fun record tail h => hsize ⟨h.2.1, h.2.2.1⟩
    · rw [if_pos hhandshake]
      exact reads_nothing fun record tail h => hhandshake h.1

/-- A host's name goes in and comes out: what a record and a stream are read as is what the grammar
has them spell, and nothing else is read. -/
theorem hostID_exact {lowerRune : ℕ → ℕ} (hlower : KeepsForeign lowerRune) :
    (∀ record, ∃ result, hostID lowerRune record = some result ∧ ∀ id,
      result = .ok id ↔ ∃ r : HelloRecord, record = r.encode ∧ r.hello.NamesID id) ∧
    ∀ s, ∃ result rest, readRecord s = some (result, rest) ∧ ∀ record tail,
      (result = .ok record ∧ rest.bytes = tail) ↔ IsRecord record ∧ s.bytes = record ++ tail :=
  ⟨hostID_decides hlower, readRecord_exact⟩

/-- ASCII's letters, and the two beyond it whose lower case is ASCII's. -/
def lowerRunes (r : ℕ) : ℕ :=
  if r = 0x212A then 0x6B
  else if r = 0x130 then 0x69
  else if 0x41 ≤ r ∧ r ≤ 0x5A then r + 0x20
  else r

/-- The nil UUID but for its last digit, `last`. -/
def nilUUID (last : UInt8) : List UInt8 :=
  List.replicate 8 0x30 ++ 0x2D :: List.replicate 4 0x30 ++ 0x2D :: List.replicate 4 0x30
    ++ 0x2D :: List.replicate 4 0x30 ++ 0x2D :: List.replicate 11 0x30 ++ [last]

/-- A ClientHello for the host whose id ends in `A`, spelled with a dot behind it. -/
def nilUUIDRecord : List UInt8 :=
  [0x16, 3, 1, 0, 0x5D, 1, 0, 0, 0x59, 3, 3] ++ List.replicate 32 0
    ++ [0, 0, 2, 0x13, 1, 1, 0, 0, 0x2E, 0, 0, 0, 0x2A, 0, 0x28, 0, 0, 0x25] ++
      nilUUID 0x41 ++ [0x2E]

theorem hostID_exact_nilUUID :
    ∃ r : HelloRecord, nilUUIDRecord = r.encode ∧ r.hello.NamesID (nilUUID 0x61) := by
  have hlower : KeepsForeign lowerRunes := by
    intro r hr c hc
    have hlt := UInt8.lt_iff_toNat_lt.mp hc.lt
    have hk : c.toNat ≠ 0x6B := by
      intro h
      have hc' : c = 0x6B := UInt8.toNat_inj.mp h
      subst hc'
      exact absurd hc (by unfold Spells; decide)
    have hi : c.toNat ≠ 0x69 := by
      intro h
      have hc' : c = 0x69 := UInt8.toNat_inj.mp h
      subst hc'
      exact absurd hc (by unfold Spells; decide)
    simp only [UInt8.reduceToNat] at hlt
    unfold lowerRunes
    split_ifs <;> omega
  obtain ⟨result, hread, hnames⟩ := (hostID_exact hlower).1 nilUUIDRecord
  refine (hnames (nilUUID 0x61)).mp ?_
  have hrun : hostID lowerRunes nilUUIDRecord = some (.ok (nilUUID 0x61)) := by decide +kernel
  exact Option.some.inj (hread.symm.trans hrun)

end ClientHello
