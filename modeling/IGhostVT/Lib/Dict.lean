import Mathlib.Order.Basic
import Mathlib.Data.List.Pairwise
import Mathlib.Data.List.Sort
import Mathlib.Data.List.Basic
import Mathlib.Algebra.BigOperators.Group.List.Basic
import Mathlib.Tactic.SplitIfs

/-!
# Lib/Dict — finite maps in key order

A `Dict κ α` is its entries in strictly increasing key order, so two dictionaries that answer every
lookup alike are equal (`Dict.ext_get?`) and reading `keys` *is* reading them sorted.  Every
operation is structural on the entry list, so a closed dictionary evaluates in the kernel.
-/

universe u v

/-- A finite map, as its entries in strictly increasing key order. -/
structure Dict (κ : Type u) (α : Type v) [LinearOrder κ] where
  /-- The entries, smallest key first. -/
  entries : List (κ × α)
  /-- Strictly increasing keys, hence no key twice. -/
  sorted : entries.Pairwise fun a b => a.1 < b.1

namespace Dict

variable {κ : Type u} {α : Type v} [LinearOrder κ]

instance [DecidableEq α] : DecidableEq (Dict κ α) := fun d d' =>
  decidable_of_iff (d.entries = d'.entries)
    ⟨fun h => by cases d; cases d'; cases h; rfl, fun h => h ▸ rfl⟩

/-- The first entry under `k`. -/
def lookupIn (k : κ) : List (κ × α) → Option α
  | [] => none
  | e :: es => if e.1 = k then some e.2 else lookupIn k es

/-- Ordered insertion, replacing the entry under the same key. -/
def insertIn (k : κ) (v : α) : List (κ × α) → List (κ × α)
  | [] => [(k, v)]
  | e :: es =>
    if k < e.1 then (k, v) :: e :: es
    else if k = e.1 then (k, v) :: es
    else e :: insertIn k v es

/-- What is in a list after an insertion was inserted, or was there. -/
theorem mem_insertIn {k : κ} {v : α} {a : κ × α} : ∀ {es : List (κ × α)},
    a ∈ insertIn k v es → a = (k, v) ∨ a ∈ es
  | [], h => by simpa [insertIn] using h
  | e :: es, h => by
      rw [insertIn] at h
      split_ifs at h
      · simpa using h
      · rcases List.mem_cons.mp h with h | h
        · exact Or.inl h
        · exact Or.inr (List.mem_cons_of_mem _ h)
      · rcases List.mem_cons.mp h with h | h
        · exact Or.inr (h ▸ List.mem_cons_self)
        · exact (mem_insertIn h).imp_right (List.mem_cons_of_mem _)

/-- An insertion keeps the keys in order. -/
theorem pairwise_insertIn (k : κ) (v : α) : ∀ {es : List (κ × α)},
    es.Pairwise (fun a b => a.1 < b.1) → (insertIn k v es).Pairwise fun a b => a.1 < b.1
  | [], _ => by simp [insertIn]
  | e :: es, h => by
      obtain ⟨he, hes⟩ := List.pairwise_cons.mp h
      rw [insertIn]
      split_ifs with h1 h2
      · refine List.pairwise_cons.mpr ⟨fun a ha => ?_, h⟩
        rcases List.mem_cons.mp ha with rfl | ha
        · exact h1
        · exact h1.trans (he a ha)
      · exact List.pairwise_cons.mpr ⟨fun a ha => h2 ▸ he a ha, hes⟩
      · refine List.pairwise_cons.mpr ⟨fun a ha => ?_, pairwise_insertIn k v hes⟩
        rcases mem_insertIn ha with rfl | ha
        · exact lt_of_le_of_ne (not_lt.mp h1) (Ne.symm h2)
        · exact he a ha

/-- The dictionary with no entry. -/
def empty : Dict κ α := ⟨[], List.Pairwise.nil⟩

instance : EmptyCollection (Dict κ α) := ⟨empty⟩

instance : Inhabited (Dict κ α) := ⟨empty⟩

/-- The value under `k`, if there is one. -/
def get? (d : Dict κ α) (k : κ) : Option α := lookupIn k d.entries

/-- `d` with `v` under `k`. -/
def insert (d : Dict κ α) (k : κ) (v : α) : Dict κ α :=
  ⟨insertIn k v d.entries, pairwise_insertIn k v d.sorted⟩

/-- `d` without `k`. -/
def erase (d : Dict κ α) (k : κ) : Dict κ α :=
  ⟨d.entries.filter fun e => e.1 ≠ k, d.sorted.filter _⟩

/-- The entries that meet `p`. -/
def filter (d : Dict κ α) (p : α → Bool) : Dict κ α :=
  ⟨d.entries.filter fun e => p e.2, d.sorted.filter _⟩

/-- The keys, smallest first. -/
def keys (d : Dict κ α) : List κ := d.entries.map Prod.fst

/-- Every value replaced by `f` of its key. -/
def mapKeys (d : Dict κ α) (f : κ → α) : Dict κ α :=
  ⟨d.entries.map fun e => (e.1, f e.1), List.pairwise_map.mpr d.sorted⟩

/-- `f k` put under each `k` of `ks` that has no value yet. -/
def fill (d : Dict κ α) (ks : List κ) (f : κ → α) : Dict κ α :=
  ks.foldl (fun d k => if (d.get? k).isNone then d.insert k (f k) else d) d

/-! ## Lookups

A dictionary is what it answers; these say what it answers after each operation. -/

@[simp] theorem get?_empty (k : κ) : (∅ : Dict κ α).get? k = none := rfl

/-- The key inserted at has the new value, every other key its own. -/
theorem lookupIn_insertIn (k : κ) (v : α) (k' : κ) : ∀ es : List (κ × α),
    lookupIn k' (insertIn k v es) = if k = k' then some v else lookupIn k' es
  | [] => by simp [insertIn, lookupIn]
  | e :: es => by
      by_cases hk : k = k'
      · subst hk
        rw [insertIn, if_pos rfl]
        split_ifs with h1 h2
        · simp [lookupIn]
        · simp [lookupIn]
        · simp [lookupIn, Ne.symm h2, lookupIn_insertIn]
      · rw [insertIn, if_neg hk]
        split_ifs with h1 h2
        · simp [lookupIn, hk]
        · simp [lookupIn, hk, ← h2]
        · simp [lookupIn, hk, lookupIn_insertIn]

theorem get?_insert (d : Dict κ α) (k : κ) (v : α) (k' : κ) :
    (d.insert k v).get? k' = if k = k' then some v else d.get? k' :=
  lookupIn_insertIn k v k' d.entries

@[simp] theorem get?_insert_self (d : Dict κ α) (k : κ) (v : α) :
    (d.insert k v).get? k = some v := by simp [get?_insert]

theorem get?_insert_of_ne (d : Dict κ α) {k k' : κ} (h : k ≠ k') (v : α) :
    (d.insert k v).get? k' = d.get? k' := by simp [get?_insert, h]

/-- What is no key has no value. -/
theorem lookupIn_eq_none_iff {k : κ} : ∀ es : List (κ × α),
    lookupIn k es = none ↔ k ∉ es.map Prod.fst
  | [] => by simp [lookupIn]
  | e :: es => by
      by_cases h : e.1 = k
      · simp [lookupIn, h]
      · simp [lookupIn, h, lookupIn_eq_none_iff es, Ne.symm h]

theorem get?_eq_none_iff {d : Dict κ α} {k : κ} : d.get? k = none ↔ k ∉ d.keys :=
  lookupIn_eq_none_iff _

/-- A key is one that has a value. -/
theorem mem_keys_iff {d : Dict κ α} {k : κ} : k ∈ d.keys ↔ ∃ v, d.get? k = some v := by
  rw [← not_iff_not, ← get?_eq_none_iff, Option.eq_none_iff_forall_ne_some, not_exists]

/-- Without a key's entries it has no value, and others keep theirs. -/
theorem lookupIn_filter_ne (k k' : κ) : ∀ es : List (κ × α),
    lookupIn k' (es.filter fun e => e.1 ≠ k) = if k = k' then none else lookupIn k' es
  | [] => by simp [lookupIn]
  | e :: es => by
      have ih := lookupIn_filter_ne k k' es
      by_cases he : e.1 = k
      · by_cases hk : k = k'
        · simpa [List.filter_cons, he, hk] using ih
        · simpa [List.filter_cons, he, hk, lookupIn] using ih
      · by_cases hk : k = k'
        · subst hk
          simpa [List.filter_cons, he, lookupIn] using ih
        · rw [if_neg hk] at ih ⊢
          rw [List.filter_cons, if_pos (by simpa using he), lookupIn, lookupIn, ih]

theorem get?_erase (d : Dict κ α) (k k' : κ) :
    (d.erase k).get? k' = if k = k' then none else d.get? k' :=
  lookupIn_filter_ne k k' d.entries

/-- Every key that is there gets a value of its own. -/
theorem get?_mapKeys (d : Dict κ α) (f : κ → α) (k : κ) :
    (d.mapKeys f).get? k = (d.get? k).map fun _ => f k := by
  obtain ⟨es, h⟩ := d
  induction es with
  | nil => rfl
  | cons e es ih =>
    have ih := ih (List.pairwise_cons.mp h).2
    by_cases he : e.1 = k
    · simp [get?, mapKeys, lookupIn, he]
    · simpa [get?, mapKeys, lookupIn, he] using ih

/-- Missing keys are filled in, those that are there keep what they have. -/
theorem get?_fill (d : Dict κ α) (ks : List κ) (f : κ → α) (k : κ) :
    (d.fill ks f).get? k = (d.get? k).or (if k ∈ ks then some (f k) else none) := by
  induction ks generalizing d with
  | nil => simp [fill]
  | cons a ks ih =>
    rw [fill, List.foldl_cons, ← fill, ih]
    by_cases hka : a = k
    · subst hka
      cases hg : d.get? a <;> simp [hg]
    · have hne : k ≠ a := fun h => hka h.symm
      split_ifs with h1 h2 h3 <;> simp_all [get?_insert]

/-! ## Extensionality -/

instance : Std.Irrefl fun a b : κ × α => a.1 < b.1 := ⟨fun _ => lt_irrefl _⟩

instance : Std.Antisymm fun a b : κ × α => a.1 < b.1 := ⟨fun _ _ h h' => absurd h' h.asymm⟩

/-- With keys in order, an entry is what its key is looked up as. -/
theorem lookupIn_of_mem {es : List (κ × α)} (h : es.Pairwise fun a b => a.1 < b.1)
    {e : κ × α} (he : e ∈ es) : lookupIn e.1 es = some e.2 := by
  induction es with
  | nil => simp at he
  | cons a es ih =>
    obtain ⟨ha, hes⟩ := List.pairwise_cons.mp h
    rcases List.mem_cons.mp he with rfl | he
    · simp [lookupIn]
    · simp [lookupIn, (ha e he).ne, ih hes he]

/-- What is looked up is an entry. -/
theorem mem_of_lookupIn {es : List (κ × α)} {k : κ} {v : α} (h : lookupIn k es = some v) :
    (k, v) ∈ es := by
  induction es with
  | nil => simp [lookupIn] at h
  | cons a es ih =>
    rw [lookupIn] at h
    split_ifs at h with hk
    · obtain rfl := hk
      obtain rfl := Option.some.inj h
      exact List.mem_cons_self
    · exact List.mem_cons_of_mem _ (ih h)

/-- An entry is exactly a successful lookup. -/
theorem mem_entries_iff {d : Dict κ α} {k : κ} {v : α} :
    (k, v) ∈ d.entries ↔ d.get? k = some v :=
  ⟨fun h => lookupIn_of_mem d.sorted h, mem_of_lookupIn⟩

/-- **Dictionaries are extensional**: the entry list is determined by the lookups. -/
theorem ext_get? {d d' : Dict κ α} (h : ∀ k, d.get? k = d'.get? k) : d = d' := by
  have hmem : ∀ e, e ∈ d.entries ↔ e ∈ d'.entries := fun e => by
    rw [show e = (e.1, e.2) from rfl, mem_entries_iff, mem_entries_iff, h]
  have hent : d.entries = d'.entries :=
    List.Pairwise.eq_of_mem_iff d.sorted d'.sorted hmem
  cases d
  cases d'
  cases hent
  rfl

/-! ## Whole entry lists

Counts and sums over all entries, taken apart at one key: what accounting arguments go by. -/

/-- Entries put in one after another are each found under their key. -/
theorem get?_foldl_insert {es : List (κ × α)} (h : es.Pairwise fun a b => a.1 < b.1) (d : Dict κ α)
    (k : κ) :
    (es.foldl (fun d e => d.insert e.1 e.2) d).get? k = (lookupIn k es).or (d.get? k) := by
  induction es generalizing d with
  | nil => rfl
  | cons e es ih =>
    obtain ⟨he, hes⟩ := List.pairwise_cons.mp h
    rw [List.foldl_cons, ih hes, get?_insert, lookupIn]
    by_cases hk : e.1 = k
    · have hnone : lookupIn k es = none := by
        rw [lookupIn_eq_none_iff]
        intro hmem
        obtain ⟨a, ha, rfl⟩ := List.mem_map.mp hmem
        exact (he a ha).ne hk
      rw [if_pos hk, if_pos hk, hnone]
      rfl
    · rw [if_neg hk, if_neg hk]

/-- A filter by keys keeps or drops a key's value. -/
theorem lookupIn_filter_key (c : κ → Bool) (k : κ) : ∀ es : List (κ × α),
    lookupIn k (es.filter fun e => c e.1) = if c k then lookupIn k es else none
  | [] => by simp [lookupIn]
  | e :: es => by
      have ih := lookupIn_filter_key c k es
      by_cases he : e.1 = k
      · subst he
        by_cases hc : c e.1 = true
        · simp [hc, lookupIn]
        · simpa [hc] using ih
      · by_cases hc : c e.1 = true
        · simpa [hc, lookupIn, he] using ih
        · simpa [hc, lookupIn, he] using ih

/-- Filling with another dictionary's keys. -/
theorem get?_fill_keys {β : Type*} (d : Dict κ α) (d' : Dict κ β) (f : κ → α) (k : κ) :
    (d.fill d'.keys f).get? k = (d.get? k).or ((d'.get? k).map fun _ => f k) := by
  rw [get?_fill]
  cases hk : d'.get? k with
  | none => rw [if_neg (get?_eq_none_iff.mp hk), Option.map_none]
  | some v => rw [if_pos (mem_keys_iff.mpr ⟨v, hk⟩), Option.map_some]

/-- A filter by values keeps the keys whose value passes. -/
theorem get?_filter {d : Dict κ α} {p : α → Bool} {k : κ} {v : α} :
    (d.filter p).get? k = some v ↔ d.get? k = some v ∧ p v = true := by
  rw [← mem_entries_iff, ← mem_entries_iff, filter, List.mem_filter]

/-- The entry under a key, and the others. -/
theorem entries_perm {d : Dict κ α} {k : κ} {v : α} (h : d.get? k = some v) :
    d.entries.Perm ((k, v) :: (d.erase k).entries) := by
  have hmem : (k, v) ∈ d.entries := mem_entries_iff.mpr h
  have hnodup : d.entries.Nodup := d.sorted.imp fun hlt heq => hlt.ne (congrArg Prod.fst heq)
  have hnodup' : ((k, v) :: (d.erase k).entries).Nodup :=
    List.nodup_cons.mpr ⟨fun hin => by simpa using (List.mem_filter.mp hin).2, hnodup.filter _⟩
  refine (List.perm_ext_iff_of_nodup hnodup hnodup').mpr fun e => ?_
  rw [List.mem_cons, erase, List.mem_filter, decide_eq_true_eq]
  refine ⟨fun he => ?_, ?_⟩
  · by_cases hk : e.1 = k
    · have hv : d.get? k = some e.2 := mem_entries_iff.mp (hk ▸ he)
      exact .inl (Prod.ext hk (Option.some_inj.mp (hv.symm.trans h)))
    · exact .inr ⟨he, hk⟩
  · rintro (rfl | ⟨he, -⟩)
    · exact hmem
    · exact he

/-- An insertion that is erased again leaves what was there before, without the key. -/
theorem erase_insert (d : Dict κ α) (k : κ) (v : α) : (d.insert k v).erase k = d.erase k :=
  ext_get? fun k' => by
    rw [get?_erase, get?_erase, get?_insert]
    split_ifs <;> rfl

/-- Erasing what is no key changes nothing. -/
theorem erase_of_none {d : Dict κ α} {k : κ} (h : d.get? k = none) : d.erase k = d :=
  ext_get? fun k' => by
    rw [get?_erase]
    split_ifs with hk
    · rw [← hk, h]
    · rfl

/-- The entries of a dictionary one key was put into. -/
theorem entries_insert_perm (d : Dict κ α) (k : κ) (v : α) :
    (d.insert k v).entries.Perm ((k, v) :: (d.erase k).entries) := by
  have h := entries_perm (get?_insert_self d k v)
  rwa [erase_insert] at h

/-- What is counted over all entries is counted over the others and this one. -/
theorem countP_entries {d : Dict κ α} {k : κ} {v : α} (h : d.get? k = some v) (p : κ × α → Bool) :
    d.entries.countP p = (d.erase k).entries.countP p + if p (k, v) then 1 else 0 := by
  rw [(entries_perm h).countP_eq, List.countP_cons]

/-- And so after an insertion, whatever the key had before. -/
theorem countP_insert (d : Dict κ α) (k : κ) (v : α) (p : κ × α → Bool) :
    (d.insert k v).entries.countP p = (d.erase k).entries.countP p + if p (k, v) then 1 else 0 := by
  rw [(entries_insert_perm d k v).countP_eq, List.countP_cons]

/-- The same for a sum over the entries. -/
theorem sum_entries {M : Type*} [AddCommMonoid M] {d : Dict κ α} {k : κ} {v : α}
    (h : d.get? k = some v) (w : κ × α → M) :
    (d.entries.map w).sum = w (k, v) + ((d.erase k).entries.map w).sum := by
  rw [((entries_perm h).map w).sum_eq, List.map_cons, List.sum_cons]

/-- After an insertion the new value stands for the old one. -/
theorem sum_insert {M : Type*} [AddCommMonoid M] (d : Dict κ α) (k : κ) (v : α) (w : κ × α → M) :
    ((d.insert k v).entries.map w).sum = w (k, v) + ((d.erase k).entries.map w).sum := by
  rw [((entries_insert_perm d k v).map w).sum_eq, List.map_cons, List.sum_cons]

/-- A key that is there is one of the keys. -/
theorem length_keys {d : Dict κ α} {k : κ} {v : α} (h : d.get? k = some v) :
    d.keys.length = (d.erase k).keys.length + 1 := by
  rw [keys, keys, List.length_map, List.length_map, (entries_perm h).length_eq, List.length_cons]

/-- After an insertion there is that key and the others. -/
theorem length_keys_insert (d : Dict κ α) (k : κ) (v : α) :
    (d.insert k v).keys.length = (d.erase k).keys.length + 1 := by
  rw [keys, keys, List.length_map, List.length_map, (entries_insert_perm d k v).length_eq,
    List.length_cons]

theorem keys_pairwise (d : Dict κ α) : d.keys.Pairwise (· < ·) :=
  List.pairwise_map.mpr d.sorted

theorem keys_nodup (d : Dict κ α) : d.keys.Nodup := d.keys_pairwise.imp fun h => h.ne

end Dict
