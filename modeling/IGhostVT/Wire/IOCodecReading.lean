import IGhostVT.Wire.IOCodec

/-!
# Wire/IOCodecReading — what a reader may do to a cursor

`between before rest` is the cursor after `before` with `rest` to come.  Two notions say all that is
used of a reader, and both pass through `>>=`:

* `Steady` — it refuses, or it takes a prefix of `rest` and would take the same prefix if more bytes
  followed.  A steady reader never traps.
* `Reads f bytes a` — on `bytes`, whatever stands before and after them, it returns `a`.
-/

namespace IOCodec

/-- The cursor between two byte strings. -/
def Cursor.between (before rest : List UInt8) : Cursor :=
  { bytes := before ++ rest, offset := before.length }

open Cursor

variable {α β : Type} {f : Reader α} {g : α → Reader β}

/-- A reader that took something goes on with it. -/
theorem bind_of_ok {c c' : Cursor} {a : α} (h : f c = .ok (a, c')) : (f >>= g) c = g a c' := by
  show (f c >>= fun p => g p.1 p.2) = _
  rw [h]
  rfl

/-- One that refused ends all that comes behind. -/
theorem bind_of_refused {c : Cursor} (h : f c = .error .refused) :
    (f >>= g) c = .error .refused := by
  show (f c >>= fun p => g p.1 p.2) = _
  rw [h]
  rfl

/-- A full cursor's reads. -/
theorem takeRaw_between (before bytes rest : List UInt8) :
    takeRaw bytes.length (between before (bytes ++ rest))
      = .ok (bytes, between (before ++ bytes) rest) := by
  have hguard : guardRemaining bytes.length (between before (bytes ++ rest))
      = .ok ((), between before (bytes ++ rest)) := by
    refine if_pos ?_
    simp only [remaining, between, List.length_append]
    omega
  have hload : load bytes.length (between before (bytes ++ rest))
      = .ok (bytes, between (before ++ bytes) rest) := by
    rw [load, if_pos (by simp only [between, List.length_append]; omega)]
    simp [between]
  rw [takeRaw, bind_of_ok hguard, hload]

/-- A read of more than remains is refused. -/
theorem takeRaw_refused {count : ℕ} {before rest : List UInt8} (h : rest.length < count) :
    takeRaw count (between before rest) = .error .refused := by
  refine bind_of_refused (if_neg ?_)
  simp only [remaining, between, List.length_append]
  omega

/-! ## Steady readers

A steady reader only moves forward, inside its bytes, and reads the same whatever comes behind. -/

/-- It refuses, or takes a prefix of what is to come, the same whatever follows. -/
def Steady (f : Reader α) : Prop :=
  ∀ before rest, f (between before rest) = .error .refused ∨
    ∃ a used rest', rest = used ++ rest' ∧
      ∀ more, f (between before (rest ++ more)) = .ok (a, between (before ++ used) (rest' ++ more))

/-- Refusing takes nothing. -/
theorem steady_refuse : Steady (refuse : Reader α) := fun _ _ => Or.inl rfl

/-- Nor does a value. -/
theorem steady_pure (a : α) : Steady (pure a : Reader α) := fun before rest =>
  Or.inr ⟨a, [], rest, rfl, fun more => by rw [List.append_nil]; rfl⟩

/-- **Steadiness passes through `>>=`.** -/
theorem Steady.bind (hf : Steady f) (hg : ∀ a, Steady (g a)) : Steady (f >>= g) := by
  intro before rest
  rcases hf before rest with hf | ⟨a, used, rest', rfl, hf⟩
  · exact Or.inl (bind_of_refused hf)
  · have hnil := hf []
    simp only [List.append_nil] at hnil
    rcases hg a (before ++ used) rest' with hg | ⟨b, used', rest'', rfl, hg⟩
    · exact Or.inl ((bind_of_ok hnil).trans hg)
    · refine Or.inr ⟨b, used ++ used', rest'', (List.append_assoc _ _ _).symm, fun more => ?_⟩
      rw [bind_of_ok (hf more), hg more, List.append_assoc]

/-- A check of what is left takes nothing. -/
theorem steady_guardRemaining (count : ℤ) : Steady (guardRemaining count) := by
  intro before rest
  by_cases h : count ≤ rest.length
  · refine Or.inr ⟨(), [], rest, rfl, fun more => ?_⟩
    rw [List.append_nil]
    refine if_pos ?_
    simp only [remaining, between, List.length_append]
    omega
  · refine Or.inl (if_neg ?_)
    simp only [remaining, between, List.length_append]
    omega

/-- So many bytes. -/
theorem steady_takeRaw (count : ℕ) : Steady (takeRaw count) := by
  intro before rest
  rcases lt_or_ge rest.length count with h | h
  · exact Or.inl (takeRaw_refused h)
  · refine Or.inr ⟨rest.take count, rest.take count, rest.drop count,
      (List.take_append_drop count rest).symm, fun more => ?_⟩
    have hlen : (rest.take count).length = count := List.length_take_of_le h
    have := takeRaw_between before (rest.take count) (rest.drop count ++ more)
    rwa [hlen, ← List.append_assoc, List.take_append_drop] at this

theorem steady_takeUInt8 : Steady takeUInt8 := (steady_takeRaw 1).bind fun _ => steady_pure _

/-- Four bytes as a number. -/
theorem steady_takeUInt32 : Steady takeUInt32 := (steady_takeRaw 4).bind fun _ => steady_pure _

/-- Eight bytes. -/
theorem steady_takeUInt64 : Steady takeUInt64 := (steady_takeRaw 8).bind fun _ => steady_pure _

/-- A length, and so many bytes. -/
theorem steady_takeBytes : Steady takeBytes := steady_takeUInt32.bind fun _ => steady_takeRaw _

/-- The same, of what is no NUL. -/
theorem steady_takeCString : Steady takeCString := by
  refine steady_takeBytes.bind fun bytes => ?_
  split_ifs
  · exact steady_refuse
  · exact steady_pure _

/-- A count that what is left may hold. -/
theorem steady_takeCount : Steady takeCount :=
  steady_takeUInt32.bind fun _ => (steady_guardRemaining _).bind fun _ => steady_pure _

/-- A reader a number of times. -/
theorem steady_repeating {pass : α → Reader α} (h : ∀ acc, Steady (pass acc)) :
    ∀ (count : ℕ) (acc : α), Steady (repeating pass count acc)
  | 0, acc => steady_pure acc
  | count + 1, acc => (h acc).bind fun acc => steady_repeating h count acc

/-- **The decoder is steady**: whatever lengths and counts the bytes claim, it stays within them. -/
theorem steady_decodeValue : ∀ levels : ℕ, Steady (decodeValue levels)
  | 0 => steady_refuse
  | levels + 1 => by
      have ih := steady_decodeValue levels
      refine steady_takeUInt8.bind fun tag => ?_
      split
      · exact steady_takeUInt64.bind fun _ => steady_pure _
      · exact steady_takeUInt64.bind fun _ => steady_pure _
      · exact steady_takeUInt8.bind fun _ => steady_pure _
      · exact steady_takeCString.bind fun _ => steady_pure _
      · exact steady_takeBytes.bind fun _ => steady_pure _
      · refine steady_takeCount.bind fun count => (steady_repeating (fun values => ?_) count _).bind
          fun _ => steady_pure _
        exact ih.bind fun _ => steady_pure _
      · refine steady_takeCount.bind fun count =>
          (steady_repeating (fun entries => ?_) count _).bind
          fun _ => steady_pure _
        exact steady_takeCString.bind fun _ => ih.bind fun _ => steady_pure _
      · exact steady_refuse

/-! ## Reading what was written

What an encoder writes is what the reader of its kind takes, and no more. -/

/-- On `bytes`, between whatever else, the reader returns `a` and stands behind them. -/
def Reads (f : Reader α) (bytes : List UInt8) (a : α) : Prop :=
  ∀ before rest, f (between before (bytes ++ rest)) = .ok (a, between (before ++ bytes) rest)

/-- A value is written as nothing. -/
theorem reads_pure (a : α) : Reads (pure a : Reader α) [] a := fun before rest => by
  rw [List.append_nil]
  rfl

/-- One piece behind another. -/
theorem Reads.bind {a : α} {b : β} {bytes bytes' : List UInt8} (hf : Reads f bytes a)
    (hg : Reads (g a) bytes' b) : Reads (f >>= g) (bytes ++ bytes') b := fun before rest => by
  rw [List.append_assoc, bind_of_ok (hf before (bytes' ++ rest)), hg, List.append_assoc]

/-- A reader followed by code that reads nothing more. -/
theorem Reads.map {a : α} {b : β} {bytes : List UInt8} (hf : Reads f bytes a)
    (hg : g a = pure b) : Reads (f >>= g) bytes b := by
  have := hf.bind (hg ▸ reads_pure b : Reads (g a) [] b)
  rwa [List.append_nil] at this

/-- Bytes as they are. -/
theorem reads_takeRaw (bytes : List UInt8) : Reads (takeRaw bytes.length) bytes bytes :=
  fun before rest => takeRaw_between before bytes rest

/-- One byte. -/
theorem reads_takeUInt8 (b : UInt8) : Reads takeUInt8 [b] b := by
  refine (reads_takeRaw [b]).map (congrArg pure ?_)
  simp [leValue]

/-- A number in as many bytes as it fits. -/
theorem reads_leBytes {k n : ℕ} (h : n < 256 ^ k) :
    Reads (takeRaw k >>= fun bytes => pure (leValue bytes)) (leBytes k n) n := by
  have := reads_takeRaw (leBytes k n)
  rw [length_leBytes] at this
  exact this.map (congrArg pure (leValue_leBytes h))

/-- A number below `2 ^ 32`. -/
theorem reads_takeUInt32 {n : ℕ} (h : n < 2 ^ 32) : Reads takeUInt32 (leBytes 4 n) n :=
  reads_leBytes (by norm_num; exact h)

/-- Any 64 bits. -/
theorem reads_takeUInt64 (v : UInt64) : Reads takeUInt64 (leBytes 8 v.toNat) v.toNat :=
  reads_leBytes (by norm_num; exact v.toNat_lt)

/-- A length before so many bytes. -/
theorem reads_takeBytes {bytes : List UInt8} (h : bytes.length < 2 ^ 32) :
    Reads takeBytes (leBytes 4 bytes.length ++ bytes) bytes :=
  (reads_takeUInt32 h).bind (reads_takeRaw bytes)

/-- And a string without NUL. -/
theorem reads_takeCString {value : CString} (h : value.1.length < 2 ^ 32) :
    Reads takeCString (leBytes 4 value.1.length ++ value.1) value :=
  (reads_takeBytes h).map (dif_pos value.2)

/-- A count is read when as many bytes at least follow it. -/
theorem Reads.takeCount {g : ℕ → Reader β} {b : β} {count : ℕ} {bytes : List UInt8}
    (h : count < 2 ^ 32) (hbytes : count ≤ bytes.length) (hg : Reads (g count) bytes b) :
    Reads (IOCodec.takeCount >>= g) (leBytes 4 count ++ bytes) b := by
  intro before rest
  rw [List.append_assoc]
  have hguard : guardRemaining count (between (before ++ leBytes 4 count) (bytes ++ rest))
      = .ok ((), between (before ++ leBytes 4 count) (bytes ++ rest)) := by
    refine if_pos ?_
    simp only [remaining, between, List.length_append]
    omega
  have hcount : IOCodec.takeCount (between before (leBytes 4 count ++ (bytes ++ rest)))
      = .ok (count, between (before ++ leBytes 4 count) (bytes ++ rest)) := by
    rw [IOCodec.takeCount, bind_of_ok (reads_takeUInt32 h before (bytes ++ rest)),
      bind_of_ok hguard]
    rfl
  rw [bind_of_ok hcount, hg, List.append_assoc]

/-- **A loop reads what was written for a list**, one element a pass. -/
theorem reads_repeating {γ : Type} {pass : α → Reader α} {written : γ → List UInt8}
    {push : α → γ → α} : ∀ (xs : List γ) (acc : α),
    (∀ acc, ∀ x ∈ xs, Reads (pass acc) (written x) (push acc x)) →
      Reads (repeating pass xs.length acc) (xs.flatMap written) (xs.foldl push acc)
  | [], acc, _ => reads_pure acc
  | x :: xs, acc, h => (h acc x List.mem_cons_self).bind
      (reads_repeating xs (push acc x) fun acc y hy => h acc y (List.mem_cons_of_mem _ hy))

end IOCodec
