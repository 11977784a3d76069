import IGhostVT.Relay.ClientHello
import Mathlib.Tactic.SplitIfs

/-!
# Relay/ClientHelloGrammar — which records name a host

The grammar is what the parser's formats write.  A reader's `left` is what it has still to read,
nothing once it went bad, so each read is one format taken off it (`Reader.Reads`), and a check that
comes late still sees every read before it.
-/

namespace ClientHello

open Format

/-! ## The grammar -/

structure Name where
  kind : { bs : List UInt8 // bs.length = 1 }
  value : Short 2

def Name.isHostName (n : Name) : Bool := beValue n.kind.1 = 0

def nameFormat : Format Name :=
  ((fixed 1).prod (short 2)).map ⟨fun v => ⟨v.1, v.2⟩, fun n => (n.kind, n.value), fun _ => rfl,
    fun _ => rfl⟩

structure Extension where
  type : { bs : List UInt8 // bs.length = 2 }
  data : Short 2

def Extension.isServerName (e : Extension) : Bool := beValue e.type.1 = 0

def extensionFormat : Format Extension :=
  ((fixed 2).prod (short 2)).map ⟨fun v => ⟨v.1, v.2⟩, fun e => (e.type, e.data), fun _ => rfl,
    fun _ => rfl⟩

/-- A ClientHello, its extensions not read. -/
structure Hello where
  version : { bs : List UInt8 // bs.length = 2 }
  random : { bs : List UInt8 // bs.length = 32 }
  session : Short 1
  suites : Short 2
  even : suites.1.length % 2 = 0
  compression : Short 1
  extensions : Short 2

/-- What stands before the extensions. -/
def headFormat := (fixed 2).prod ((fixed 32).prod ((short 1).prod ((short 2).prod (short 1))))

def Hello.encode (h : Hello) : List UInt8 :=
  headFormat.encode (h.version, h.random, h.session, h.suites, h.compression) ++
    (short 2).encode h.extensions

/-- A server-name list with one host name in it. -/
structure ServerNameList (data name : List UInt8) : Prop where
  exists_names : ∃ (names : List Name) (list : Short 2) (n : Name),
    data = (short 2).encode list ∧ list.1 = nameFormat.encodeAll names ∧
      names.filter Name.isHostName = [n] ∧ n.value.1 = name

/-! ## A decision

A reader decides a grammar when it fails just where there is no parse. -/

/-- It comes to an end, and accepts what `G` holds of. -/
def Decides {ε α : Type} (x : Option (Except ε α)) (G : α → Prop) : Prop :=
  ∃ r, x = some r ∧ ∀ a, r = .ok a ↔ G a

section

variable {ε α β : Type} {G G' : α → Prop}

/-- An error decides that there is no parse. -/
theorem decides_error {e : ε} (h : ∀ a, ¬ G a) : Decides (some (.error e)) G :=
  ⟨_, rfl, fun a => ⟨nofun, fun ha => absurd ha (h a)⟩⟩

/-- A result decides that it is the only one. -/
theorem decides_ok {a : α} (h : ∀ b, G b ↔ a = b) : Decides (some (.ok a : Except ε α)) G :=
  ⟨_, rfl, fun b => by rw [h b, Except.ok.injEq]⟩

/-- What is decided is decided of anything equivalent. -/
theorem Decides.congr {x : Option (Except ε α)} (h : Decides x G) (hG : ∀ a, G' a ↔ G a) :
    Decides x G' := by
  obtain ⟨r, hx, hr⟩ := h
  exact ⟨r, hx, fun a => (hr a).trans (hG a).symm⟩

end

/-! ## The reader

It keeps a mark that it failed, and every read from then on fails too. -/

namespace Reader

/-- What is still to read: nothing, once a read went past the end. -/
def left (r : Reader) : Option (List UInt8) := if r.bad then none else some r.b

/-- A reader that failed has nothing left. -/
theorem left_of_bad {r : Reader} (h : r.bad = true) : r.left = none := if_pos h

/-- One that did not has its bytes. -/
theorem left_of_not_bad {r : Reader} (h : r.bad = false) : r.left = some r.b := by
  rw [left, h]
  rfl

/-- Having nothing left is having failed. -/
theorem bad_of_left {r : Reader} (h : r.left = none) : r.bad = true := by
  rw [left] at h
  split at h
  · assumption
  · cases h

/-- Having bytes left is not having failed. -/
theorem of_left {r : Reader} {bs : List UInt8} (h : r.left = some bs) :
    r.bad = false ∧ r.b = bs := by
  rw [left] at h
  split at h
  case isTrue => cases h
  case isFalse hbad => exact ⟨Bool.eq_false_iff.mpr hbad, Option.some.inj h⟩

/-- A computation reads `F` off what is left, and comes to `f` of what was there. -/
def Reads {α β : Type} (x : Option (β × Reader)) (F : Format α) (f : α → β) (r : Reader) : Prop :=
  ∃ b r', x = some (b, r') ∧ r'.left = r.left.bind F.skip ∧
    ∀ v rest, r.left.bind F.split = some (v, rest) → b = f v

/-- A reader that failed keeps failing. -/
theorem take_of_bad {r : Reader} (h : r.left = none) (n : ℤ) :
    ∃ r', r.take n = some (none, r') ∧ r'.left = none := by
  rw [take, if_pos (.inl (bad_of_left h))]
  exact ⟨_, rfl, left_of_bad rfl⟩

/-- As many bytes as there are to take. -/
theorem take_of_split {r : Reader} {bs : List UInt8} (h : r.left = some bs) (n : ℕ) :
    ∃ r', r.take n = some (((fixed n).split bs).map fun v => v.1.1, r') ∧
      r'.left = (fixed n).skip bs := by
  obtain ⟨hbad, rfl⟩ := of_left h
  rw [take, skip, fixed, hbad]
  dsimp only
  by_cases hn : n ≤ r.b.length
  · have hslice₁ : Checked.slice r.b 0 n = some (r.b.take n) := by
      rw [Checked.slice, if_pos (by omega)]
      rfl
    have hslice₂ : Checked.slice r.b n r.b.length = some (r.b.drop n) := by
      rw [Checked.slice, if_pos (by omega), Int.toNat_natCast, Int.toNat_natCast, List.take_length]
    rw [dif_pos hn, if_neg (by simp; omega), hslice₁, hslice₂]
    exact ⟨_, rfl, left_of_not_bad rfl⟩
  · rw [dif_neg hn, if_pos (.inr (.inr (by omega)))]
    exact ⟨_, rfl, left_of_bad rfl⟩

/-- Taking bytes reads so many of them. -/
theorem reads_take (r : Reader) (n : ℕ) : Reads (r.take n) (fixed n) (fun bs => some bs.1) r := by
  cases hr : r.left with
  | none =>
    obtain ⟨r', htake, hleft⟩ := take_of_bad hr n
    refine ⟨_, r', htake, by rw [hr, hleft]; rfl, fun v rest h => ?_⟩
    rw [hr] at h
    cases h
  | some bs =>
    obtain ⟨r', htake, hleft⟩ := take_of_split hr n
    refine ⟨_, r', htake, by rw [hr, hleft]; rfl, fun v rest h => ?_⟩
    rw [hr, Option.bind_some] at h
    rw [h]
    rfl

/-- The value of as many bytes. -/
def number {n : ℕ} (bs : { bs : List UInt8 // bs.length = n }) : ℤ := beValue bs.1

/-- A number is read once its bytes are there, and is `0` where they are not. -/
theorem reads_number (r : Reader) {n : ℕ} {g : List UInt8 → Option ℤ}
    (hg : ∀ bs : { bs : List UInt8 // bs.length = n }, g bs.1 = some (number bs)) :
    Reads (do
      let (b, r) ← r.take n
      match b with
      | none => return (0, r)
      | some b => return (← g b, r)) (fixed n) number r := by
  cases hr : r.left with
  | none =>
    obtain ⟨r', htake, hleft⟩ := take_of_bad hr n
    rw [htake]
    refine ⟨0, r', rfl, by rw [hr, hleft]; rfl, fun v rest h => ?_⟩
    rw [hr] at h
    cases h
  | some bs =>
    obtain ⟨r', htake, hleft⟩ := take_of_split hr n
    rw [htake]
    cases hsplit : (fixed n).split bs with
    | none =>
      refine ⟨0, r', rfl, by rw [hr, hleft]; rfl, fun v rest h => ?_⟩
      rw [hr, Option.bind_some, hsplit] at h
      cases h
    | some v =>
      refine ⟨number v.1, r', ?_, by rw [hr, hleft]; rfl, fun v' rest h => ?_⟩
      · simp only [Option.map_some, Option.bind_eq_bind, Option.bind_some, hg]
        rfl
      · rw [hr, Option.bind_some, hsplit] at h
        cases h
        rfl

/-- A byte is read as a number. -/
theorem reads_u8 (r : Reader) : Reads r.u8 (fixed 1) number r := by
  have hu8 : r.u8 = do
      let (b, r) ← r.take (1 : ℕ)
      match b with
      | none => return (0, r)
      | some b => return (← (Checked.get b 0).map fun c => (c.toNat : ℤ), r) := by
    unfold u8
    refine congrArg _ (funext fun v => ?_)
    obtain ⟨b, r⟩ := v
    cases b with
    | none => rfl
    | some b => cases hget : Checked.get b 0 <;> simp [hget]
  rw [hu8]
  refine r.reads_number fun bs => ?_
  obtain ⟨bs, hlength⟩ := bs
  obtain ⟨b, rfl⟩ := List.length_eq_one_iff.mp hlength
  simp [number, beValue, leValue, Checked.get]

/-- Two are, highest first. -/
theorem reads_u16 (r : Reader) : Reads r.u16 (fixed 2) number r := by
  refine r.reads_number (g := uint16) fun bs => ?_
  obtain ⟨bs, hlength⟩ := bs
  obtain ⟨a, b, rfl⟩ := List.length_eq_two.mp hlength
  simp [number, beValue, leValue, uint16, Checked.get]
  ring

/-- A length, and the bytes behind it. -/
theorem Reads.short {r : Reader} {k : ℕ} {x : Option (ℤ × Reader)}
    (hx : Reads x (fixed k) number r) :
    Reads (x.bind fun v => v.2.take v.1) (Format.short k) (fun x => some x.1) r := by
  obtain ⟨n, r', rfl, hleft, hvalue⟩ := hx
  rw [Reads, Option.bind_some]
  -- Where the length is not there, the reader is bad.
  have hbad : r'.left = none → r.left.bind (Format.short k).split = none →
      ∃ b r'', r'.take n = some (b, r'') ∧ r''.left = r.left.bind (Format.short k).skip ∧
        ∀ v rest, r.left.bind (Format.short k).split = some (v, rest) → b = some v.1 := by
    intro hnone hsplit
    obtain ⟨r'', htake, hleft'⟩ := take_of_bad hnone n
    refine ⟨none, r'', htake, ?_, fun v rest h => by rw [hsplit] at h; cases h⟩
    rw [hleft']
    cases hr : r.left with
    | none => rfl
    | some bs =>
      rw [hr, Option.bind_some] at hsplit
      rw [Option.bind_some, skip, hsplit]
      rfl
  cases hr : r.left with
  | none =>
    rw [hr] at hleft hbad
    exact hbad hleft rfl
  | some bs =>
    rw [hr, Option.bind_some] at hleft hvalue
    rw [hr, Option.bind_some] at hbad
    have hshort := short_split_eq k bs
    cases hsplit : (fixed k).split bs with
    | none =>
      rw [skip, hsplit] at hleft
      rw [hsplit] at hshort
      exact hbad hleft (Option.map_eq_none_iff.mp hshort)
    | some c =>
      obtain ⟨c, bs'⟩ := c
      obtain rfl := hvalue c bs' hsplit
      rw [skip, hsplit] at hleft
      rw [hsplit, Option.bind_some] at hshort
      obtain ⟨r'', htake, hleft'⟩ := take_of_split hleft (beValue c.1)
      rw [Option.bind_some, Option.bind_some]
      cases hx : (Format.short k).split bs with
      | none =>
        rw [hx] at hshort
        have hnone := Option.map_eq_none_iff.mp hshort.symm
        refine ⟨_, r'', htake, ?_, fun v rest h => by cases h⟩
        rw [hleft', skip, skip, hnone, hx]
        rfl
      | some x =>
        rw [hx] at hshort
        obtain ⟨v, hv, heq⟩ := Option.map_eq_some_iff.mp hshort.symm
        refine ⟨_, r'', htake, ?_, fun v' rest h => ?_⟩
        · rw [hleft', skip, skip, hv, hx]
          exact congrArg some (congrArg Prod.snd heq)
        · cases h
          rw [hv]
          exact congrArg some (congrArg Prod.fst heq)

/-- A short string has its length in one byte. -/
theorem reads_takeU8 (r : Reader) : Reads r.takeU8 (Format.short 1) (fun x => some x.1) r :=
  r.reads_u8.short

/-- Or in two. -/
theorem reads_takeU16 (r : Reader) : Reads r.takeU16 (Format.short 2) (fun x => some x.1) r :=
  r.reads_u16.short

/-- Two reads are one of both formats. -/
theorem Reads.both {α α' β β' : Type} {r : Reader} {x : Option (β × Reader)} {F : Format α}
    {f : α → β} {y : Reader → Option (β' × Reader)} {G : Format α'} {g : α' → β'}
    (hx : Reads x F f r) (hy : ∀ r', Reads (y r') G g r') :
    ∃ a r' b r'', x = some (a, r') ∧ y r' = some (b, r'') ∧
      r''.left = r.left.bind (F.prod G).skip ∧
      ∀ v rest, r.left.bind (F.prod G).split = some (v, rest) → a = f v.1 ∧ b = g v.2 := by
  obtain ⟨a, r', rfl, hleft, hfirst⟩ := hx
  obtain ⟨b, r'', hsecond, hleft', hlast⟩ := hy r'
  refine ⟨a, r', b, r'', rfl, hsecond, ?_, fun v rest h => ?_⟩
  · rw [hleft', hleft, Option.bind_assoc]
    exact congrArg _ (funext fun bs => (skip_prod F G bs).symm)
  · obtain ⟨bs, hbs, hsplit⟩ := Option.bind_eq_some_iff.mp h
    obtain ⟨bs', hF, hG⟩ := prod_split_eq_some hsplit
    rw [hbs, Option.bind_some] at hleft hfirst
    rw [hleft, skip, hF] at hlast
    exact ⟨hfirst v.1 bs' hF, hlast v.2 rest hG⟩

end Reader

/-- A short string has to be all that is left. -/
theorem whole_decides {α : Type} {r : Reader} {bs : List UInt8} (hr : r.left = some bs)
    {K : List UInt8 → Option (Except Error α)} {G : Short 2 → α → Prop}
    (hK : ∀ list, Decides (K list.1) (G list)) :
    Decides (do
      let (b, r) ← r.takeU16
      if r.bad ∨ r.b.length ≠ 0 then return .error .malformed else K (b.getD []))
      fun a => ∃ list, (short 2).split bs = some (list, []) ∧ G list a := by
  obtain ⟨b, r', htake, hleft, hvalue⟩ := r.reads_takeU16
  rw [hr, Option.bind_some] at hleft hvalue
  rw [htake]
  simp only [Option.bind_eq_bind, Option.bind_some]
  cases hsplit : (short 2).split bs with
  | none =>
    rw [skip, hsplit] at hleft
    rw [if_pos (.inl (Reader.bad_of_left hleft))]
    exact decides_error (by rintro a ⟨_, h, -⟩; cases h)
  | some l =>
    obtain ⟨l, tail⟩ := l
    rw [skip, hsplit] at hleft
    obtain ⟨hgood, rfl⟩ := Reader.of_left hleft
    obtain rfl := hvalue l r'.b hsplit
    cases htail : r'.b with
    | cons c cs =>
      rw [if_pos (.inr (by simp))]
      exact decides_error (by rintro a ⟨_, h, -⟩; cases h)
    | nil =>
      rw [if_neg (by simp [hgood])]
      refine (hK l).congr fun a => ⟨?_, fun h => ⟨l, rfl, h⟩⟩
      rintro ⟨_, heq, h⟩
      cases heq
      exact h

/-! ## The list of names -/

/-- A name is its type and its string. -/
theorem nameFormat_split (bs : List UInt8) : nameFormat.split bs =
    (((fixed 1).prod (short 2)).split bs).map fun v => (⟨v.1.1, v.1.2⟩, v.2) := rfl

/-- Which is never empty. -/
theorem nameFormat_ne_nil (n : Name) : nameFormat.encode n ≠ [] := by
  have hlength : n.kind.1 ≠ [] := by
    intro h
    have hone := n.kind.2
    rw [h] at hone
    cases hone
  exact fun h => hlength (List.append_eq_nil_iff.mp h).1

/-- What the loop makes of the names it passes. -/
def countNames (count : ℕ) (name : List UInt8) (names : List Name) : ℕ × List UInt8 :=
  names.foldl (fun c n => if n.isHostName then (c.1 + 1, n.value.1) else c) (count, name)

/-- Host names are counted, other names are passed by. -/
theorem countNames_cons (count : ℕ) (name : List UInt8) (n : Name) (names : List Name) :
    countNames count name (n :: names) =
      if n.isHostName then countNames (count + 1) n.value.1 names
        else countNames count name names := by
  rw [countNames, List.foldl_cons]
  split <;> rfl

/-- The type and the kind the parser looks for are `0`. -/
theorem number_eq_zero {n : ℕ} (bs : { bs : List UInt8 // bs.length = n }) :
    Reader.number bs = 0 ↔ beValue bs.1 = 0 := Int.natCast_eq_zero

/-- **The list of names is read to its end, or not at all.** -/
theorem hostNames_decides : ∀ (fuel : ℕ) (names : Reader) (count : ℕ) (name : List UInt8),
    names.bad = false → names.b.length ≤ fuel →
    Decides (hostNames fuel names count name) fun result =>
      ∃ ns, names.b = nameFormat.encodeAll ns ∧ countNames count name ns = result := by
  intro fuel
  induction fuel with
  | zero =>
    intro names count name _ hfuel
    have hnil : names.b = [] := List.length_eq_zero_iff.mp (Nat.le_zero.mp hfuel)
    rw [hostNames, if_pos (by rw [hnil]; rfl), hnil]
    exact decides_ok fun result => exists_encodeAll_nil nameFormat nameFormat_ne_nil
  | succ fuel ih =>
    intro names count name hbad hfuel
    rw [hostNames]
    by_cases hnil : names.b = []
    · rw [if_pos (by rw [hnil]; rfl), hnil]
      exact decides_ok fun result => exists_encodeAll_nil nameFormat nameFormat_ne_nil
    rw [if_neg fun h => hnil (List.length_eq_zero_iff.mp h)]
    obtain ⟨kind, r', value, r'', hu8, htake, hleft, hvalues⟩ :=
      names.reads_u8.both Reader.reads_takeU16
    rw [Reader.left_of_not_bad hbad, Option.bind_some] at hleft hvalues
    simp only [hu8, htake, Option.bind_eq_bind, Option.bind_some]
    cases hsplit : ((fixed 1).prod (short 2)).split names.b with
    | none =>
      rw [skip, hsplit] at hleft
      rw [if_pos (Reader.bad_of_left hleft)]
      exact decides_error fun result =>
        not_exists_encodeAll nameFormat hnil (by rw [nameFormat_split, hsplit]; rfl)
    | some v =>
      obtain ⟨v, rest⟩ := v
      obtain ⟨rfl, rfl⟩ := hvalues v rest hsplit
      rw [skip, hsplit] at hleft
      obtain ⟨hgood, rfl⟩ := Reader.of_left hleft
      have hname : nameFormat.split names.b = some (⟨v.1, v.2⟩, r''.b) := by
        rw [nameFormat_split, hsplit]
        rfl
      have hshorter := nameFormat.length_rest_lt nameFormat_ne_nil hname
      have hrest := fun count name => ih r'' count name hgood (by omega)
      rw [if_neg (by rw [hgood]; decide)]
      have hzero : Reader.number v.1 = nameTypeHostName ↔ beValue v.1.1 = 0 :=
        number_eq_zero v.1
      by_cases hkind : beValue v.1.1 = 0
      · have hhost : Name.isHostName ⟨v.1, v.2⟩ = true := decide_eq_true hkind
        rw [if_pos (hzero.mpr hkind)]
        refine (hrest (count + 1) v.2.1).congr fun result => ?_
        rw [exists_encodeAll_cons nameFormat hnil hname]
        simp only [countNames_cons, hhost, if_true]
      · have hother : Name.isHostName ⟨v.1, v.2⟩ = false := decide_eq_false hkind
        rw [if_neg fun h => hkind (hzero.mp h)]
        refine (hrest count name).congr fun result => ?_
        rw [exists_encodeAll_cons nameFormat hnil hname]
        simp only [countNames_cons, hother, Bool.false_eq_true, if_false]

/-- The count is the number of host names, and the name is the last of them. -/
theorem countNames_eq (count : ℕ) (name : List UInt8) (ns : List Name) :
    countNames count name ns = (count + (ns.filter Name.isHostName).length,
      ((ns.filter Name.isHostName).getLast?.map fun n => n.value.1).getD name) := by
  induction ns generalizing count name with
  | nil => rfl
  | cons n ns ih =>
    rw [countNames_cons]
    cases hhost : n.isHostName
    · rw [List.filter_cons_of_neg (by rw [hhost]; decide), if_neg (by decide), ih]
    · rw [List.filter_cons_of_pos hhost, if_pos rfl, ih, List.length_cons, List.getLast?_cons]
      refine Prod.ext (by dsimp only; omega) ?_
      cases (ns.filter Name.isHostName).getLast? <;> rfl

/-- One name counted is the one there is. -/
theorem countNames_eq_one {name name' : List UInt8} {ns : List Name} :
    countNames 0 name ns = (1, name') ↔
      ∃ n, ns.filter Name.isHostName = [n] ∧ n.value.1 = name' := by
  rw [countNames_eq, Prod.mk.injEq, Nat.zero_add, List.length_eq_one_iff]
  constructor
  · rintro ⟨⟨n, hn⟩, hname⟩
    rw [hn] at hname
    exact ⟨n, hn, hname⟩
  · rintro ⟨n, hn, rfl⟩
    exact ⟨⟨n, hn⟩, by rw [hn]; rfl⟩

/-- The list is all the data, and what the loop counts is one. -/
theorem serverNameList_iff {data name name' : List UInt8} : ServerNameList data name' ↔
    ∃ list, (short 2).split data = some (list, []) ∧
      ∃ ns, list.1 = nameFormat.encodeAll ns ∧ countNames 0 name ns = (1, name') := by
  simp only [countNames_eq_one]
  constructor
  · rintro ⟨names, list, n, rfl, hlist, hfilter, hname⟩
    refine ⟨list, ?_, names, hlist, n, hfilter, hname⟩
    simpa using (short 2).split_append list []
  · rintro ⟨list, hsplit, names, hlist, n, hfilter, hname⟩
    refine ⟨names, list, n, ?_, hlist, hfilter, hname⟩
    rw [(short 2).split_iff.mp hsplit, List.append_nil]

/-- The data of a `server_name`, read before `K` goes on with the name. -/
theorem list_decides (data name : List UInt8)
    {K : List UInt8 → Option (Except Error (List UInt8))} {G : List UInt8 → List UInt8 → Prop}
    (hK : ∀ name', Decides (K name') (G name')) :
    Decides (do
      let (names, list) ← Reader.takeU16 { b := data }
      if list.bad ∨ list.b.length ≠ 0 then return .error .malformed
      else
        let names : Reader := { b := names.getD [] }
        match ← hostNames names.b.length names 0 name with
        | .error e => return .error e
        | .ok (count, name) =>
          if count > 1 then return .error .manyNames
          else if count = 0 then return .error .noSNI
          else K name) fun name'' => ∃ name', ServerNameList data name' ∧ G name' name'' := by
  have hwhole : ({ b := data } : Reader).left = some data := rfl
  refine (whole_decides hwhole (K := fun names => do
      match ← hostNames names.length { b := names } 0 name with
      | .error e => return .error e
      | .ok (count, name) =>
        if count > 1 then return .error .manyNames
        else if count = 0 then return .error .noSNI
        else K name) (G := fun list name'' => ∃ name', (∃ ns,
    list.1 = nameFormat.encodeAll ns ∧ countNames 0 name ns = (1, name')) ∧ G name' name'')
      fun list => ?_).congr fun name'' => ?_
  · obtain ⟨result, hresult, hcount⟩ :=
      hostNames_decides list.1.length { b := list.1 } 0 name rfl le_rfl
    simp only [hresult, Option.bind_eq_bind, Option.bind_some, ← hcount]
    cases result with
    | error e => exact decides_error (by rintro name'' ⟨_, h, -⟩; cases h)
    | ok c =>
      obtain ⟨count, name'⟩ := c
      simp only [Except.ok.injEq, Prod.mk.injEq]
      by_cases hmany : count > 1
      · rw [if_pos hmany]
        exact decides_error (by rintro _ ⟨_, ⟨h, -⟩, -⟩; omega)
      by_cases hnone : count = 0
      · rw [if_neg hmany, if_pos hnone]
        exact decides_error (by rintro _ ⟨_, ⟨h, -⟩, -⟩; omega)
      rw [if_neg hmany, if_neg hnone]
      refine (hK name').congr fun name'' => ⟨?_, fun h => ⟨name', ⟨by omega, rfl⟩, h⟩⟩
      rintro ⟨_, ⟨-, rfl⟩, h⟩
      exact h
  · simp only [@serverNameList_iff data name]
    constructor
    · rintro ⟨name', ⟨list, hsplit, hlist⟩, h⟩
      exact ⟨list, hsplit, name', hlist, h⟩
    · rintro ⟨list, hsplit, name', hlist, h⟩
      exact ⟨name', ⟨list, hsplit, hlist⟩, h⟩

/-! ## The extensions -/

/-- An extension is its type and its string. -/
theorem extensionFormat_split (bs : List UInt8) : extensionFormat.split bs =
    (((fixed 2).prod (short 2)).split bs).map fun v => (⟨v.1.1, v.1.2⟩, v.2) := rfl

/-- Which is never empty either. -/
theorem extensionFormat_ne_nil (e : Extension) : extensionFormat.encode e ≠ [] := by
  have hlength : e.type.1 ≠ [] := by
    intro h
    have htwo := e.type.2
    rw [h] at htwo
    cases htwo
  exact fun h => hlength (List.append_eq_nil_iff.mp h).1

/-- A list of extensions names a host, or keeps the name there is. -/
def Names (found : Bool) (name : List UInt8) (es : List Extension) (name' : List UInt8) : Prop :=
  if found then es.filter Extension.isServerName = [] ∧ name = name'
  else ∃ e, es.filter Extension.isServerName = [e] ∧ ServerNameList e.data.1 name'

/-- **So is the list of extensions.** -/
theorem extensions_decides : ∀ (fuel : ℕ) (exts : Reader) (name : List UInt8) (found : Bool),
    exts.bad = false → exts.b.length ≤ fuel →
    Decides (extensions fuel exts name found) fun name' =>
      ∃ es, exts.b = extensionFormat.encodeAll es ∧ Names found name es name' := by
  have hend : ∀ (name : List UInt8) (found : Bool),
      Decides
        (some (if found then .ok name else .error .noSNI) : Option (Except Error (List UInt8)))
        fun name' => ∃ es, [] = extensionFormat.encodeAll es ∧ Names found name es name' := by
    intro name found
    cases found
    · refine decides_error fun name' => ?_
      rw [exists_encodeAll_nil extensionFormat extensionFormat_ne_nil]
      rintro ⟨e, he, -⟩
      cases he
    · refine decides_ok fun name' => ?_
      rw [exists_encodeAll_nil extensionFormat extensionFormat_ne_nil]
      exact and_iff_right rfl
  intro fuel
  induction fuel with
  | zero =>
    intro exts name found _ hfuel
    have hnil : exts.b = [] := List.length_eq_zero_iff.mp (Nat.le_zero.mp hfuel)
    rw [extensions, if_pos (by rw [hnil]; rfl), hnil]
    exact hend name found
  | succ fuel ih =>
    intro exts name found hbad hfuel
    rw [extensions]
    by_cases hnil : exts.b = []
    · rw [if_pos (by rw [hnil]; rfl), hnil]
      exact hend name found
    rw [if_neg fun h => hnil (List.length_eq_zero_iff.mp h)]
    obtain ⟨typ, r', data, r'', hu16, htake, hleft, hvalues⟩ :=
      exts.reads_u16.both Reader.reads_takeU16
    rw [Reader.left_of_not_bad hbad, Option.bind_some] at hleft hvalues
    simp only [hu16, htake, Option.bind_eq_bind, Option.bind_some]
    cases hsplit : ((fixed 2).prod (short 2)).split exts.b with
    | none =>
      rw [skip, hsplit] at hleft
      rw [if_pos (Reader.bad_of_left hleft)]
      exact decides_error fun result =>
        not_exists_encodeAll extensionFormat hnil (by rw [extensionFormat_split, hsplit]; rfl)
    | some v =>
      obtain ⟨v, rest⟩ := v
      obtain ⟨rfl, rfl⟩ := hvalues v rest hsplit
      rw [skip, hsplit] at hleft
      obtain ⟨hgood, rfl⟩ := Reader.of_left hleft
      have hextension : extensionFormat.split exts.b = some (⟨v.1, v.2⟩, r''.b) := by
        rw [extensionFormat_split, hsplit]
        rfl
      have hshorter := extensionFormat.length_rest_lt extensionFormat_ne_nil hextension
      have hrest := fun name found => ih r'' name found hgood (by omega)
      rw [if_neg (by rw [hgood]; decide)]
      have hzero : Reader.number v.1 = extServerName ↔ beValue v.1.1 = 0 :=
        number_eq_zero v.1
      by_cases htype : beValue v.1.1 = 0
      · have hserver : Extension.isServerName ⟨v.1, v.2⟩ = true := decide_eq_true htype
        rw [if_neg (not_not.mpr (hzero.mpr htype))]
        refine Decides.congr ?_ fun name' => exists_encodeAll_cons extensionFormat hnil hextension
        cases found with
        | true =>
          rw [if_pos rfl]
          refine decides_error fun name' => ?_
          rintro ⟨es, -, hnone, -⟩
          rw [List.filter_cons_of_pos hserver] at hnone
          cases hnone
        | false =>
          have hnames : ∀ es name', Names false name (⟨v.1, v.2⟩ :: es) name' ↔
              es.filter Extension.isServerName = [] ∧ ServerNameList v.2.1 name' := by
            intro es name'
            simp only [Names, List.filter_cons_of_pos hserver, Bool.false_eq_true, if_false]
            constructor
            · rintro ⟨e, he, hlist⟩
              obtain ⟨rfl, hrest⟩ := List.cons.inj he
              exact ⟨hrest, hlist⟩
            · rintro ⟨hrest, hlist⟩
              exact ⟨_, by rw [hrest], hlist⟩
          rw [if_neg (by decide)]
          refine (list_decides v.2.1 name fun name' => hrest name' true).congr fun name'' => ?_
          constructor
          · rintro ⟨es, hes, h⟩
            obtain ⟨hnone, hlist⟩ := (hnames es name'').mp h
            exact ⟨name'', hlist, es, hes, hnone, rfl⟩
          · rintro ⟨_, hlist, es, hes, hnone, rfl⟩
            exact ⟨es, hes, (hnames es _).mpr ⟨hnone, hlist⟩⟩
      · have hother : Extension.isServerName ⟨v.1, v.2⟩ = false := decide_eq_false htype
        rw [if_pos fun h => htype (hzero.mp h)]
        refine (hrest name found).congr fun name' => ?_
        rw [exists_encodeAll_cons extensionFormat hnil hextension]
        simp only [Names, List.filter_cons, hother, Bool.false_eq_true, if_false]

/-! ## The hello -/

/-- A hello's extensions are well formed, one of them a list that names `name`. -/
def Hello.NamesHost (h : Hello) (name : List UInt8) : Prop :=
  ∃ es : List Extension, h.extensions.1 = extensionFormat.encodeAll es ∧
    ∃ e, es.filter Extension.isServerName = [e] ∧ ServerNameList e.data.1 name

/-- A hello is its head and one string of extensions, and nothing behind it. -/
theorem exists_hello {hello : List UInt8} {p : Short 2 → Prop} :
    (∃ h : Hello, hello = h.encode ∧ p h.extensions) ↔
      ∃ v rest, headFormat.split hello = some (v, rest) ∧ v.2.2.2.1.1.length % 2 = 0 ∧
        ∃ list, (short 2).split rest = some (list, []) ∧ p list := by
  constructor
  · rintro ⟨h, rfl, hp⟩
    refine ⟨_, _, headFormat.split_append _ _, h.even, h.extensions, ?_, hp⟩
    simpa using (short 2).split_append h.extensions []
  · rintro ⟨v, rest, hhead, heven, list, hlist, hp⟩
    refine ⟨⟨v.1, v.2.1, v.2.2.1, v.2.2.2.1, heven, v.2.2.2.2, list⟩, ?_, hp⟩
    rw [headFormat.split_iff.mp hhead, (short 2).split_iff.mp hlist, List.append_nil]
    rfl

/-- The four reads before the cipher suites' parity is looked at. -/
theorem serverName_decides (hello : List UInt8) : Decides (serverName hello) fun name =>
    ∃ h : Hello, hello = h.encode ∧ h.NamesHost name := by
  obtain ⟨_, r₁, h₁, hleft₁, -⟩ := Reader.reads_take { b := hello } 2
  obtain ⟨_, r₂, h₂, hleft₂, -⟩ := r₁.reads_take 32
  obtain ⟨_, r₃, h₃, hleft₃, -⟩ := r₂.reads_takeU8
  obtain ⟨suites, r₄, h₄, -, hsuites⟩ := r₃.reads_u16
  obtain ⟨_, r₅, h₅, hleft₅, -⟩ := r₃.reads_takeU16
  obtain ⟨_, r₆, h₆, hleft₆, -⟩ := r₅.reads_takeU8
  have hwhole : ({ b := hello } : Reader).left = some hello := rfl
  have hhead : r₆.left = headFormat.skip hello := by
    rw [hleft₆, hleft₅, hleft₃, hleft₂, hleft₁, hwhole, Option.bind_some]
    simp only [headFormat, skip_prod, Option.bind_assoc]
  rw [Reader.takeU16, h₄, Option.bind_eq_bind, Option.bind_some] at h₅
  unfold serverName
  simp only [Nat.cast_ofNat] at h₁ h₂
  simp only [h₁, h₂, h₃, h₄, h₅, h₆, Option.bind_eq_bind, Option.bind_some]
  refine Decides.congr ?_ fun name => @exists_hello hello fun list =>
    ∃ es, list.1 = extensionFormat.encodeAll es ∧ Names false [] es name
  cases hsplit : headFormat.split hello with
  | none =>
    rw [skip, hsplit] at hhead
    rw [if_pos (Reader.bad_of_left hhead)]
    split <;> exact decides_error (by rintro name ⟨_, _, h, -⟩; cases h)
  | some v =>
    obtain ⟨v, rest⟩ := v
    rw [skip, hsplit] at hhead
    obtain ⟨hgood, rfl⟩ := Reader.of_left hhead
    -- How many bytes of cipher suites there are is what is asked.
    have hcount : suites = v.2.2.2.1.1.length := by
      obtain ⟨bs₁, hversion, hsplit⟩ := prod_split_eq_some hsplit
      obtain ⟨bs₂, hrandom, hsplit⟩ := prod_split_eq_some hsplit
      obtain ⟨bs₃, hsession, hsplit⟩ := prod_split_eq_some hsplit
      obtain ⟨bs₄, hsuite, -⟩ := prod_split_eq_some hsplit
      obtain ⟨c, rest', hfirst, hvalue⟩ := short_split_length hsuite
      have hleft : r₃.left = some bs₃ := by
        rw [hleft₃, hleft₂, hleft₁, hwhole]
        simp only [Option.bind_some, skip, hversion, Option.map_some, hrandom, hsession]
      rw [hleft, Option.bind_some] at hsuites
      rw [hsuites c rest' hfirst, ← hvalue]
      rfl
    have hparity : suites % 2 ≠ 0 ↔ v.2.2.2.1.1.length % 2 ≠ 0 := by omega
    by_cases hodd : v.2.2.2.1.1.length % 2 ≠ 0
    · rw [if_pos (hparity.mpr hodd)]
      refine decides_error ?_
      rintro name ⟨_, _, heq, heven, -⟩
      cases heq
      exact hodd heven
    rw [if_neg fun h => hodd (hparity.mp h), if_neg (by rw [hgood]; decide)]
    refine Decides.congr (G := fun name => ∃ list, (short 2).split r₆.b = some (list, []) ∧
      ∃ es, list.1 = extensionFormat.encodeAll es ∧ Names false [] es name) ?_ fun name => ?_
    · by_cases hnone : r₆.b.length = 0
      · rw [if_pos hnone, List.length_eq_zero_iff.mp hnone]
        exact decides_error (by rintro name ⟨_, h, -⟩; cases h)
      rw [if_neg hnone]
      exact whole_decides hhead (K := fun b => extensions b.length { b } [] false)
        (G := fun list name => ∃ es, list.1 = extensionFormat.encodeAll es ∧ Names false [] es name)
        fun list => extensions_decides list.1.length { b := list.1 } [] false rfl le_rfl
    · constructor
      · rintro ⟨_, _, heq, -, h⟩
        cases heq
        exact h
      · exact fun h => ⟨v, r₆.b, rfl, not_not.mp hodd, h⟩

end ClientHello
