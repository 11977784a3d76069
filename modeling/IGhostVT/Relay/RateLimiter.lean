import IGhostVT.Lib.Checked
import IGhostVT.Lib.Dict
import Mathlib.Data.List.Induction

/-!
# Relay/RateLimiter — how many data connections an address may open

An address opens at most `limit` data connections in any window, and is refused exactly when it has
(`RateLimiter.answers_exact`).  The limiter keeps the times it allowed and drops those that have
passed, an address's own whenever it calls and everyone's once in a window.  What it still keeps of
an address is what it allowed it in the window (`Tracks.recent`), and no answer depends on more.

Times are nanoseconds from the zero time on.
-/

/-! ## The limiter -/

namespace Relay

def maxDuration : ℤ := 2 ^ 63 - 1

def minDuration : ℤ := -2 ^ 63

/-- `t.Sub(u)`, which saturates. -/
def since (t u : ℤ) : ℤ := max minDuration (min maxDuration (t - u))

structure RateLimiter (Addr : Type) [LinearOrder Addr] where
  limit : ℤ
  window : ℤ
  seen : Dict Addr (List ℤ) := ∅
  sweep : ℤ := 0

/-- A call of `allow`. -/
structure Call (Addr : Type) where
  addr : Addr
  time : ℤ
deriving DecidableEq

variable {Addr : Type} [LinearOrder Addr]

def newRateLimiter (Addr : Type) [LinearOrder Addr] (limit window : ℤ) : RateLimiter Addr :=
  { limit := limit, window := window }

namespace RateLimiter

/-- The loop over `seen`.  The last of no times is nothing to compare with: the process would
stop. -/
def swept (cutoff : ℤ) (entries : List (Addr × List ℤ)) (seen : Dict Addr (List ℤ)) :
    Option (Dict Addr (List ℤ)) :=
  entries.foldlM (fun seen entry => do
    let last ← Checked.get entry.2 (entry.2.length - 1)
    pure (if cutoff < last then seen else seen.erase entry.1)) seen

/-- The first half of `allow`. -/
def sweepAt (r : RateLimiter Addr) (now : ℤ) : Option (RateLimiter Addr) :=
  if since now r.sweep > r.window then do
    let seen ← swept (now - r.window) r.seen.entries r.seen
    pure { r with seen := seen, sweep := now }
  else some r

/-- What is kept of an address. -/
def times (r : RateLimiter Addr) (addr : Addr) : List ℤ := (r.seen.get? addr).getD []

/-- The second half of `allow`. -/
def count (r : RateLimiter Addr) (addr : Addr) (now : ℤ) : RateLimiter Addr × Bool :=
  let times := (r.times addr).dropWhile (· ≤ now - r.window)
  if times.length ≥ r.limit then ({ r with seen := r.seen.insert addr times }, false)
  else ({ r with seen := r.seen.insert addr (times ++ [now]) }, true)

def allow (r : RateLimiter Addr) (addr : Addr) (now : ℤ) : Option (RateLimiter Addr × Bool) :=
  if r.limit ≤ 0 then some (r, true)
  else do
    let r ← r.sweepAt now
    pure (r.count addr now)

/-- The answers to calls in a row, if the process lives to give them. -/
def answers (r : RateLimiter Addr) : List (Call Addr) → Option (List Bool)
  | [] => some []
  | c :: calls => do
    let (r, allowed) ← r.allow c.addr c.time
    let rest ← r.answers calls
    pure (allowed :: rest)

/-- …of a limiter that never sweeps. -/
def unsweptAnswers (r : RateLimiter Addr) : List (Call Addr) → List Bool
  | [] => []
  | c :: calls =>
    let (next, allowed) := if r.limit ≤ 0 then (r, true) else r.count c.addr c.time
    allowed :: next.unsweptAnswers calls

end RateLimiter

/-! ## The history -/

/-- When an address's calls were allowed. -/
def allowedOf (history : List (Call Addr × Bool)) (addr : Addr) : List ℤ :=
  (history.filter fun e => e.1.addr = addr ∧ e.2).map fun e => e.1.time

/-- How many calls of an address were allowed at times in `(lo, hi]`. -/
def allowedWithin (history : List (Call Addr × Bool)) (addr : Addr) (lo hi : ℤ) : ℕ :=
  (allowedOf history addr).countP fun t => lo < t ∧ t ≤ hi

/-- The answer by the history alone. -/
def allows (limit window : ℤ) (history : List (Call Addr × Bool)) (c : Call Addr) : Bool :=
  allowedWithin history c.addr (c.time - window) c.time < limit

def rationed (limit window : ℤ) (history : List (Call Addr × Bool)) : List (Call Addr) → List Bool
  | [] => []
  | c :: calls =>
    let allowed := allows limit window history c
    allowed :: rationed limit window (history ++ [(c, allowed)]) calls

@[simp] theorem allowedOf_append (h g : List (Call Addr × Bool)) (a : Addr) :
    allowedOf (h ++ g) a = allowedOf h a ++ allowedOf g a := by
  simp [allowedOf]

theorem allowedOf_singleton (c : Call Addr) (allowed : Bool) (a : Addr) :
    allowedOf [(c, allowed)] a = if c.addr = a ∧ allowed = true then [c.time] else [] := by
  by_cases h : c.addr = a ∧ allowed = true
  · simp [allowedOf, h.1, h.2]
  · rw [if_neg h, allowedOf, List.filter_cons_of_neg (by simpa using h)]
    rfl

theorem mem_allowedOf {h : List (Call Addr × Bool)} {a : Addr} {t : ℤ} (ht : t ∈ allowedOf h a) :
    ∃ e ∈ h, e.1.time = t := by
  obtain ⟨e, he, rfl⟩ := List.mem_map.mp ht
  exact ⟨e, (List.mem_filter.mp he).1, rfl⟩

theorem allowedWithin_append (h g : List (Call Addr × Bool)) (a : Addr) (lo hi : ℤ) :
    allowedWithin (h ++ g) a lo hi = allowedWithin h a lo hi + allowedWithin g a lo hi := by
  rw [allowedWithin, allowedOf_append, List.countP_append]
  rfl

/-- A wider window counts more. -/
theorem allowedWithin_mono {h : List (Call Addr × Bool)} {a : Addr} {lo hi lo' hi' : ℤ}
    (hin : ∀ e ∈ h, lo < e.1.time → e.1.time ≤ hi → lo' < e.1.time ∧ e.1.time ≤ hi') :
    allowedWithin h a lo hi ≤ allowedWithin h a lo' hi' := by
  refine List.countP_mono_left fun t ht hlt => ?_
  obtain ⟨e, he, rfl⟩ := mem_allowedOf ht
  rw [decide_eq_true_eq] at hlt ⊢
  exact hin e he hlt.1 hlt.2

section Rationed

variable {limit window : ℤ} {history : List (Call Addr × Bool)} {calls : List (Call Addr)}

@[simp] theorem length_rationed :
    (rationed limit window history calls).length = calls.length := by
  induction calls generalizing history with
  | nil => rfl
  | cons c calls ih => exact congrArg (· + 1) ih

/-- The history goes on with the calls and their answers. -/
theorem rationed_append (later : List (Call Addr)) :
    rationed limit window history (calls ++ later) =
      rationed limit window history calls ++
        rationed limit window (history ++ calls.zip (rationed limit window history calls))
          later := by
  induction calls generalizing history with
  | nil => simp [rationed]
  | cons c calls ih =>
    rw [List.cons_append, rationed, rationed, ih, List.zip_cons_cons, List.append_assoc,
      List.singleton_append, List.cons_append]

theorem zip_rationed_append (later : List (Call Addr)) :
    calls.zip (rationed limit window [] (calls ++ later)) =
      calls.zip (rationed limit window [] calls) := by
  have hzip (answers : List Bool) :
      (calls ++ []).zip (rationed limit window [] calls ++ answers) =
        calls.zip (rationed limit window [] calls) ++ [] :=
    List.zip_append length_rationed.symm
  rw [List.append_nil, List.append_nil] at hzip
  rw [rationed_append, hzip]

/-- The answer to one of the calls is that of the history before it. -/
theorem rationed_at (c : Call Addr) (later : List (Call Addr)) :
    (rationed limit window [] (calls ++ c :: later))[calls.length]? =
      some
        (allows limit window (calls.zip (rationed limit window [] (calls ++ c :: later))) c) := by
  rw [zip_rationed_append, rationed_append, List.getElem?_append_right length_rationed.le,
    length_rationed, Nat.sub_self]
  rfl

/-- **No window holds more than the limit.**  The window in question ends at the last call or
before: the call was allowed for what the window up to it held. -/
theorem rationed_bound (hlimit : 0 < limit) (hcalls : calls.Pairwise (·.time ≤ ·.time))
    (addr : Addr) (lo : ℤ) :
    (allowedWithin (calls.zip (rationed limit window [] calls)) addr lo (lo + window) : ℤ) ≤
      limit := by
  induction calls using List.reverseRecOn with
  | nil => exact hlimit.le
  | append_singleton calls c ih =>
    obtain ⟨hearlier, -, hlast⟩ := List.pairwise_append.mp hcalls
    have hbound := ih hearlier
    rw [rationed_append, List.nil_append, List.zip_append length_rationed.symm,
      allowedWithin_append]
    set history := calls.zip (rationed limit window [] calls)
    have hone : [c].zip (rationed limit window history [c]) =
        [(c, allows limit window history c)] := rfl
    rw [hone, allowedWithin.eq_def [_], allowedOf_singleton]
    split
    swap
    · simpa using hbound
    next hallowed =>
    obtain ⟨rfl, hallows⟩ := hallowed
    by_cases hin : lo < c.time ∧ c.time ≤ lo + window
    · have hle : allowedWithin history c.addr lo (lo + window) ≤
          allowedWithin history c.addr (c.time - window) c.time := by
        refine allowedWithin_mono fun e he hlo _ => ⟨by omega, ?_⟩
        exact hlast e.1 (List.of_mem_zip he).1 c (List.mem_singleton_self c)
      rw [allows, decide_eq_true_eq] at hallows
      rw [List.countP_singleton, if_pos (by simpa using hin)]
      push_cast
      omega
    · rw [List.countP_singleton, if_neg (by simpa using hin)]
      simpa using hbound

/-- An address's answers are those to its calls alone. -/
theorem rationed_filter (addr : Addr) {other : List (Call Addr × Bool)}
    (hsame : allowedOf other addr = allowedOf history addr) :
    rationed limit window other (calls.filter (·.addr = addr)) =
      ((calls.zip (rationed limit window history calls)).filter (·.1.addr = addr)).map
        Prod.snd := by
  induction calls generalizing history other with
  | nil => rfl
  | cons c calls ih =>
    rw [rationed, List.zip_cons_cons]
    by_cases hc : c.addr = addr
    · have hallows : allows limit window other c = allows limit window history c := by
        rw [allows, allows, allowedWithin, allowedWithin, hc, hsame]
      have hnext (allowed : Bool) :
          allowedOf (other ++ [(c, allowed)]) addr =
            allowedOf (history ++ [(c, allowed)]) addr := by
        rw [allowedOf_append, allowedOf_append, hsame]
      rw [List.filter_cons_of_pos (by simpa using hc), List.filter_cons_of_pos (by simpa using hc),
        List.map_cons, rationed, hallows, ih (hnext _)]
    · rw [List.filter_cons_of_neg (by simpa using hc), List.filter_cons_of_neg (by simpa using hc)]
      refine ih ?_
      rw [allowedOf_append, allowedOf_singleton, if_neg fun hand => hc hand.1,
        List.append_nil, hsame]

end Rationed

/-! ## What the limiter keeps -/

namespace RateLimiter

variable {r : RateLimiter Addr} {limit window now : ℤ} {history : List (Call Addr × Bool)}

/-- The limiter after a history: what it keeps of an address are times in their order, never none,
and as of `now` those in the window are the ones the history allowed. -/
structure Tracks (limit window : ℤ) (r : RateLimiter Addr) (history : List (Call Addr × Bool))
    (now : ℤ) : Prop where
  limit_eq : r.limit = limit
  window_eq : r.window = window
  kept_ne_nil : ∀ addr times, r.seen.get? addr = some times → times ≠ []
  kept_sorted : ∀ addr, (r.times addr).Pairwise (· ≤ ·)
  kept_le : ∀ addr, ∀ t ∈ r.times addr, t ≤ now
  past : ∀ e ∈ history, e.1.time ≤ now
  recent : ∀ addr cutoff, now - window ≤ cutoff →
    (r.times addr).filter (cutoff < ·) = (allowedOf history addr).filter (cutoff < ·)

theorem tracks_new (limit window now : ℤ) :
    Tracks limit window (newRateLimiter Addr limit window) [] now where
  limit_eq := rfl
  window_eq := rfl
  kept_ne_nil _ _ h := nomatch h
  kept_sorted _ := List.Pairwise.nil
  kept_le _ _ h := nomatch h
  past _ h := nomatch h
  recent _ _ _ := rfl

/-- Time passes. -/
theorem Tracks.mono {later : ℤ} (h : Tracks limit window r history now) (hle : now ≤ later) :
    Tracks limit window r history later :=
  { h with
    kept_le := fun addr t ht => (h.kept_le addr t ht).trans hle
    past := fun e he => (h.past e he).trans hle
    recent := fun addr cutoff hcut => h.recent addr cutoff (by omega) }

/-! ### The sweep -/

/-- The loop drops the entries whose last time has passed. -/
theorem swept_spec (cutoff : ℤ) {entries : List (Addr × List ℤ)}
    (hne : ∀ e ∈ entries, e.2 ≠ []) (seen : Dict Addr (List ℤ)) :
    ∃ swept', swept cutoff entries seen = some swept' ∧
      ∀ addr, swept'.get? addr = seen.get? addr ∨
        swept'.get? addr = none ∧ ∃ times, (addr, times) ∈ entries ∧
          ∃ h : times ≠ [], times.getLast h ≤ cutoff := by
  induction entries generalizing seen with
  | nil => exact ⟨seen, rfl, fun _ => .inl rfl⟩
  | cons entry entries ih =>
    have hentry : entry.2 ≠ [] := hne entry List.mem_cons_self
    have hlast : Checked.get entry.2 (entry.2.length - 1) = some (entry.2.getLast hentry) := by
      have hpos : 0 < entry.2.length := List.length_pos_iff.mpr hentry
      rw [Checked.get, if_pos (by omega), List.getLast_eq_getElem,
        show ((entry.2.length : ℤ) - 1).toNat = entry.2.length - 1 by omega]
      exact List.getElem?_eq_getElem _
    obtain ⟨swept', hswept, hget⟩ := ih (fun e he => hne e (List.mem_cons_of_mem _ he))
      (if cutoff < entry.2.getLast hentry then seen else seen.erase entry.1)
    refine ⟨swept', ?_, fun addr => ?_⟩
    · rw [swept, List.foldlM_cons, hlast]
      exact hswept
    · rcases hget addr with hsame | ⟨hnone, times, hmem, h⟩
      · rw [hsame]
        split
        · exact .inl rfl
        · next hpassed =>
          rw [Dict.get?_erase]
          split
          · next heq =>
            subst heq
            exact .inr ⟨rfl, entry.2, List.mem_cons_self, hentry, not_lt.mp hpassed⟩
          · exact .inl rfl
      · exact .inr ⟨hnone, times, List.mem_cons_of_mem _ hmem, h⟩

/-- Sorted times whose last has passed have all passed. -/
theorem filter_eq_nil_of_getLast_le {times : List ℤ} {cutoff : ℤ} (hsorted : times.Pairwise (· ≤ ·))
    (hne : times ≠ []) (hlast : times.getLast hne ≤ cutoff) :
    times.filter (cutoff < ·) = [] := by
  refine List.filter_eq_nil_iff.mpr fun t ht => ?_
  have hle : t ≤ times.getLast hne := by
    rw [← List.dropLast_append_getLast hne, List.pairwise_append] at hsorted
    rw [← List.dropLast_append_getLast hne, List.mem_append, List.mem_singleton] at ht
    rcases ht with ht | rfl
    · exact hsorted.2.2 t ht _ (List.mem_singleton_self _)
    · exact le_rfl
  simpa using hle.trans hlast

/-- **No last time of none is read, and the sweep changes nothing that counts.** -/
theorem Tracks.sweepAt (h : Tracks limit window r history now) :
    ∃ r', r.sweepAt now = some r' ∧ Tracks limit window r' history now := by
  rw [RateLimiter.sweepAt]
  split
  swap
  · exact ⟨r, rfl, h⟩
  obtain ⟨seen, hseen, hget⟩ := swept_spec (now - r.window)
    (fun e he => h.kept_ne_nil e.1 e.2 (Dict.mem_entries_iff.mp he)) r.seen
  refine ⟨{ r with seen := seen, sweep := now }, by rw [hseen]; rfl, ?_⟩
  -- an address is kept as it was, or not at all
  have htimes : ∀ addr, seen.get? addr = r.seen.get? addr ∨ seen.get? addr = none ∧
      ∀ cutoff, now - window ≤ cutoff → (r.times addr).filter (cutoff < ·) = [] := by
    intro addr
    refine (hget addr).imp_right fun ⟨hnone, times, hmem, hne, hlast⟩ =>
      ⟨hnone, fun cutoff hcut => ?_⟩
    have hkept : r.times addr = times := by
      rw [RateLimiter.times, Dict.mem_entries_iff.mp hmem]
      rfl
    have hsorted := h.kept_sorted addr
    rw [hkept] at hsorted ⊢
    exact filter_eq_nil_of_getLast_le hsorted hne (hlast.trans (h.window_eq ▸ hcut))
  refine ⟨h.limit_eq, h.window_eq, fun addr times hsome => ?_, fun addr => ?_, fun addr t ht => ?_,
    h.past, fun addr cutoff hcut => ?_⟩
  · rcases htimes addr with hsame | ⟨hnone, -⟩
    · exact h.kept_ne_nil addr times (hsame ▸ hsome)
    · cases hnone.symm.trans hsome
  · rcases htimes addr with hsame | ⟨hnone, -⟩
    · simpa only [RateLimiter.times, hsame] using h.kept_sorted addr
    · simp only [RateLimiter.times, hnone, Option.getD_none, List.Pairwise.nil]
  · rcases htimes addr with hsame | ⟨hnone, -⟩
    · exact h.kept_le addr t (by simpa only [RateLimiter.times, hsame] using ht)
    · simp only [RateLimiter.times, hnone, Option.getD_none, List.not_mem_nil] at ht
  · rcases htimes addr with hsame | ⟨hnone, hpassed⟩
    · simpa only [RateLimiter.times, hsame] using h.recent addr cutoff hcut
    · rw [← h.recent addr cutoff hcut, hpassed cutoff hcut]
      simp only [RateLimiter.times, hnone, Option.getD_none, List.filter_nil]

/-! ### The call itself -/

theorem dropWhile_eq_filter {cutoff : ℤ} : ∀ {times : List ℤ}, times.Pairwise (· ≤ ·) →
    times.dropWhile (· ≤ cutoff) = times.filter (cutoff < ·)
  | [], _ => rfl
  | t :: times, h => by
      obtain ⟨hle, htimes⟩ := List.pairwise_cons.mp h
      by_cases ht : t ≤ cutoff
      · rw [List.dropWhile_cons_of_pos (by simpa using ht), dropWhile_eq_filter htimes,
          List.filter_cons_of_neg (by simpa using ht)]
      · have hlt : ∀ u ∈ t :: times, cutoff < u := by
          intro u hu
          rcases List.mem_cons.mp hu with rfl | hu
          · exact not_le.mp ht
          · exact (not_le.mp ht).trans_le (hle u hu)
        rw [List.dropWhile_cons_of_neg (by simpa using ht),
          List.filter_eq_self.mpr fun u hu => by simpa using hlt u hu]

/-- What is left of an address's times is what it was allowed in the window. -/
theorem Tracks.trimmed (h : Tracks limit window r history now) (addr : Addr) :
    (r.times addr).dropWhile (· ≤ now - r.window) =
      (allowedOf history addr).filter (now - window < ·) := by
  rw [dropWhile_eq_filter (h.kept_sorted addr), h.window_eq, h.recent addr _ le_rfl]

theorem Tracks.length_trimmed (h : Tracks limit window r history now) (addr : Addr) :
    ((allowedOf history addr).filter (now - window < ·)).length =
      allowedWithin history addr (now - window) now := by
  rw [allowedWithin, ← List.countP_eq_length_filter]
  refine List.countP_congr fun t ht => ?_
  obtain ⟨e, he, rfl⟩ := mem_allowedOf ht
  have hpast : e.1.time ≤ now := h.past e he
  simp [hpast]

/-- An address's times are replaced by those still in the window and the ones just allowed. -/
theorem Tracks.insert (h : Tracks limit window r history now) (addr : Addr) (allowed : Bool)
    (hne : (allowedOf history addr).filter (now - window < ·) ++
      allowedOf [((⟨addr, now⟩ : Call Addr), allowed)] addr ≠ []) :
    Tracks limit window
      { r with seen := r.seen.insert addr ((allowedOf history addr).filter (now - window < ·) ++
          allowedOf [((⟨addr, now⟩ : Call Addr), allowed)] addr) }
      (history ++ [(⟨addr, now⟩, allowed)]) now := by
  have hnew : ∀ t ∈ allowedOf [((⟨addr, now⟩ : Call Addr), allowed)] addr, t = now := by
    intro t ht
    obtain ⟨e, he, rfl⟩ := mem_allowedOf ht
    rw [List.mem_singleton.mp he]
  have hpast : ∀ t ∈ allowedOf history addr, t ≤ now := by
    intro t ht
    obtain ⟨e, he, rfl⟩ := mem_allowedOf ht
    exact h.past e he
  -- what is kept of this address, and of the others
  have hself : ∀ seen, (r.seen.insert addr seen).get? addr = some seen :=
    fun seen => Dict.get?_insert_self _ _ _
  have hother : ∀ seen other, addr ≠ other →
      (r.seen.insert addr seen).get? other = r.seen.get? other :=
    fun seen other hne => Dict.get?_insert_of_ne _ hne _
  refine ⟨h.limit_eq, h.window_eq, fun other times hsome => ?_, fun other => ?_,
    fun other t ht => ?_, fun e he => ?_, fun other cutoff hcut => ?_⟩
  · by_cases heq : addr = other
    · subst heq
      cases (hself _).symm.trans hsome
      exact hne
    · exact h.kept_ne_nil other times ((hother _ other heq).symm.trans hsome)
  · by_cases heq : addr = other
    · subst heq
      rw [times, hself, Option.getD_some, List.pairwise_append]
      refine ⟨?_, ?_, fun t ht u hu => ?_⟩
      · rw [← h.recent addr _ le_rfl]
        exact (h.kept_sorted addr).filter _
      · refine List.Pairwise.imp_of_mem (fun ht hu _ => ?_)
          (List.pairwise_of_forall fun _ _ => trivial)
        rw [hnew _ ht, hnew _ hu]
      · rw [hnew u hu]
        exact hpast t (List.mem_filter.mp ht).1
    · rw [times, hother _ other heq]
      exact h.kept_sorted other
  · by_cases heq : addr = other
    · subst heq
      rw [times, hself, Option.getD_some, List.mem_append] at ht
      rcases ht with ht | ht
      · exact hpast t (List.mem_filter.mp ht).1
      · exact (hnew t ht).le
    · rw [times, hother _ other heq] at ht
      exact h.kept_le other t ht
  · rcases List.mem_append.mp he with he | he
    · exact h.past e he
    · rw [List.mem_singleton.mp he]
  · rw [allowedOf_append, List.filter_append]
    by_cases heq : addr = other
    · subst heq
      rw [times, hself, Option.getD_some, List.filter_append, List.filter_filter]
      congr 1
      refine List.filter_congr fun t _ => ?_
      rw [Bool.and_eq_left_iff_imp, decide_eq_true_eq, decide_eq_true_eq]
      exact fun hlt => hcut.trans_lt hlt
    · have hnone : allowedOf [((⟨addr, now⟩ : Call Addr), allowed)] other = [] :=
        (allowedOf_singleton _ _ _).trans (if_neg fun hand => heq hand.1)
      rw [hnone, List.filter_nil, List.append_nil, times, hother _ other heq]
      exact h.recent other cutoff hcut

/-- **One call**: it is answered by the history, and the limiter tracks what it adds to it. -/
theorem Tracks.count (h : Tracks limit window r history now) (hlimit : 0 < limit) (addr : Addr) :
    ∃ next, r.count addr now = (next, allows limit window history ⟨addr, now⟩) ∧
      Tracks limit window next
        (history ++ [(⟨addr, now⟩, allows limit window history ⟨addr, now⟩)]) now := by
  obtain rfl := h.limit_eq
  have hlength := h.length_trimmed addr
  have hallows : allows r.limit window history ⟨addr, now⟩ =
      decide ((allowedWithin history addr (now - window) now : ℤ) < r.limit) := rfl
  rw [RateLimiter.count, h.trimmed addr]
  split
  · next hge =>
    have hne : (allowedOf history addr).filter (now - window < ·) ≠ [] := by
      rw [← List.length_pos_iff]
      omega
    have hinsert := h.insert addr false
    rw [allowedOf_singleton, if_neg (by simp), List.append_nil] at hinsert
    rw [hallows, decide_eq_false (by omega)]
    exact ⟨_, rfl, hinsert hne⟩
  · next hless =>
    have hinsert := h.insert addr true
    rw [allowedOf_singleton, if_pos ⟨rfl, rfl⟩] at hinsert
    rw [hallows, decide_eq_true (by omega)]
    exact ⟨_, rfl, hinsert (List.append_ne_nil_of_right_ne_nil _ (List.cons_ne_nil _ _))⟩

/-! ## Runs -/

variable {calls : List (Call Addr)}

/-- **The answers are those of the history**, with the sweep as without. -/
theorem Tracks.answers (h : Tracks limit window r history now) (hlimit : 0 < limit)
    (hcalls : calls.Pairwise (·.time ≤ ·.time)) (hnow : ∀ c ∈ calls, now ≤ c.time) :
    r.answers calls = some (rationed limit window history calls) := by
  induction calls generalizing r history now with
  | nil => rfl
  | cons c calls ih =>
    obtain ⟨hlater, hrest⟩ := List.pairwise_cons.mp hcalls
    obtain ⟨swept, hswept, htracks⟩ := (h.mono (hnow c List.mem_cons_self)).sweepAt
    obtain ⟨next, hcount, hnext⟩ := htracks.count hlimit c.addr
    have hallow : r.allow c.addr c.time =
        some (next, allows limit window history c) := by
      rw [allow, if_neg (by rw [h.limit_eq]; omega), hswept]
      exact congrArg some hcount
    rw [RateLimiter.answers, hallow, Option.bind_eq_bind, Option.bind_some]
    dsimp only
    rw [ih hnext hrest hlater]
    rfl

theorem Tracks.unsweptAnswers (h : Tracks limit window r history now) (hlimit : 0 < limit)
    (hcalls : calls.Pairwise (·.time ≤ ·.time)) (hnow : ∀ c ∈ calls, now ≤ c.time) :
    r.unsweptAnswers calls = rationed limit window history calls := by
  induction calls generalizing r history now with
  | nil => rfl
  | cons c calls ih =>
    obtain ⟨hlater, hrest⟩ := List.pairwise_cons.mp hcalls
    obtain ⟨next, hcount, hnext⟩ := (h.mono (hnow c List.mem_cons_self)).count hlimit c.addr
    rw [RateLimiter.unsweptAnswers, if_neg (by rw [h.limit_eq]; omega), hcount]
    exact congrArg _ (ih hnext hrest hlater)

/-- **The limiter is exact.**  In calls one after another no read is out of bounds; a call is
refused when its address was allowed `limit` in the window up to it, and then only; no window of any
address holds more; another address's calls change nothing, and neither does the sweep. -/
theorem answers_exact (hlimit : 0 < limit) (hcalls : calls.Pairwise (·.time ≤ ·.time)) :
    ∃ answers, (newRateLimiter Addr limit window).answers calls = some answers ∧
      answers.length = calls.length ∧
      (∀ before c after, calls = before ++ c :: after →
        (answers[before.length]? = some false ↔
          allowedWithin (before.zip answers) c.addr (c.time - window) c.time = limit)) ∧
      (∀ addr lo, allowedWithin (calls.zip answers) addr lo (lo + window) ≤ limit) ∧
      (∀ addr, (newRateLimiter Addr limit window).answers (calls.filter (·.addr = addr)) =
        some (((calls.zip answers).filter (·.1.addr = addr)).map Prod.snd)) ∧
      (newRateLimiter Addr limit window).unsweptAnswers calls = answers := by
  -- a time before every call
  obtain ⟨now, hnow⟩ : ∃ now, ∀ c ∈ calls, now ≤ c.time := by
    cases calls with
    | nil => exact ⟨0, fun _ h => nomatch h⟩
    | cons c calls =>
      refine ⟨c.time, fun d hd => ?_⟩
      rcases List.mem_cons.mp hd with rfl | hd
      · exact le_rfl
      · exact (List.pairwise_cons.mp hcalls).1 d hd
  have htracks : Tracks limit window (newRateLimiter Addr limit window) [] now :=
    tracks_new limit window now
  refine ⟨rationed limit window [] calls, htracks.answers hlimit hcalls hnow, length_rationed, ?_,
    fun addr lo => rationed_bound hlimit hcalls addr lo, fun addr => ?_,
    htracks.unsweptAnswers hlimit hcalls hnow⟩
  · rintro before c after rfl
    have hbound : (allowedWithin (before.zip (rationed limit window [] before)) c.addr
        (c.time - window) (c.time - window + window) : ℤ) ≤ limit :=
      rationed_bound hlimit (List.pairwise_append.mp hcalls).1 c.addr _
    rw [Int.sub_add_cancel] at hbound
    rw [rationed_at, Option.some_inj, allows, decide_eq_false_iff_not, zip_rationed_append]
    omega
  · rw [htracks.answers hlimit (hcalls.filter _) fun c hc => hnow c (List.mem_filter.mp hc).1,
      rationed_filter addr rfl]

/-- Two a second: the third is refused until the first two have passed, exactly.  At 9000 the
limiter sweeps, and what it kept of both addresses goes. -/
theorem answers_exact_third :
    (newRateLimiter ℕ 2 1000).answers
        [⟨1, 5000⟩, ⟨1, 5000⟩, ⟨1, 5999⟩, ⟨2, 5999⟩, ⟨1, 6000⟩, ⟨1, 9000⟩, ⟨2, 9000⟩] =
      some [true, true, false, true, true, true, true] := by
  obtain ⟨answers, hanswers, -, -, -, -, hsame⟩ := @answers_exact ℕ _ 2 1000
    [⟨1, 5000⟩, ⟨1, 5000⟩, ⟨1, 5999⟩, ⟨2, 5999⟩, ⟨1, 6000⟩, ⟨1, 9000⟩, ⟨2, 9000⟩] (by decide)
      (by decide)
  rw [hanswers, ← hsame]
  decide

end RateLimiter

end Relay
