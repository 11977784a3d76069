import IGhostVT.Wire.IOCodecReading

/-!
# Wire/IOCodecRoundTrip — what the codec writes it reads back, and nothing else

An object that is not refused is written, read back whole, and no other cut of its bytes is accepted
(`RoundTrips`); what is refused is what the codec does not carry (`Refused`).  The one exception is
a part of `2 ^ 32` bytes or entries: its length does not fit the format's 32 bits, and the encoder
traps on it instead of refusing (`Overruns`).  `meets_iff` says exactly when that happens.
-/

namespace XPCObject

/-- `part` stands in an object at a depth. -/
inductive Occurs : ℕ → XPCObject → XPCObject → Prop
  | here (o : XPCObject) : Occurs 0 o o
  | item {depth : ℕ} {part v : XPCObject} {values : List XPCObject} (hv : v ∈ values)
      (h : Occurs depth part v) : Occurs (depth + 1) part (.array values)
  | entry {depth : ℕ} {part v : XPCObject} {key : CString} {entries : List (CString × XPCObject)}
      (hv : (key, v) ∈ entries) (h : Occurs depth part v) :
      Occurs (depth + 1) part (.dictionary entries)

/-- Every dictionary in the object is a finite map: no key stands twice. -/
def IsMap (o : XPCObject) : Prop :=
  ∀ depth entries, Occurs depth (.dictionary entries) o → (entries.map Prod.fst).Nodup

theorem IsMap.item {values : List XPCObject} (h : (array values).IsMap) {v : XPCObject}
    (hv : v ∈ values) : v.IsMap := fun depth entries hocc => h (depth + 1) entries (.item hv hocc)

theorem IsMap.entry {entries : List (CString × XPCObject)} (h : (dictionary entries).IsMap)
    {key : CString} {v : XPCObject} (hv : (key, v) ∈ entries) : v.IsMap :=
  fun depth es hocc => h (depth + 1) es (.entry hv hocc)

end XPCObject

namespace IOCodec

open XPCObject

/-- The object holds a type the codec does not carry, or nests `levels` deep. -/
def Refused (levels : ℕ) (o : XPCObject) : Prop :=
  (∃ depth, Occurs depth .unsupported o) ∨ ∃ depth part, Occurs depth part o ∧ levels ≤ depth

/-- Only carried types, fewer than `levels` deep, every length within 32 bits. -/
def Encodable : ℕ → XPCObject → Prop
  | 0, _ => False
  | _ + 1, .uint64 _ | _ + 1, .int64 _ | _ + 1, .bool _ => True
  | _ + 1, .string value => value.1.length < 2 ^ 32
  | _ + 1, .data bytes => bytes.length < 2 ^ 32
  | levels + 1, .array values => values.length < 2 ^ 32 ∧ ∀ v ∈ values, Encodable levels v
  | levels + 1, .dictionary entries => entries.length < 2 ^ 32 ∧
      ∀ e ∈ entries, e.1.1.length < 2 ^ 32 ∧ Encodable levels e.2
  | _ + 1, .unsupported => False

/-- A part of `2 ^ 32` bytes or entries stands in the object, and all that is visited before it is
encodable. -/
def Overruns : ℕ → XPCObject → Prop
  | 0, _ => False
  | _ + 1, .uint64 _ | _ + 1, .int64 _ | _ + 1, .bool _ | _ + 1, .unsupported => False
  | _ + 1, .string value => 2 ^ 32 ≤ value.1.length
  | _ + 1, .data bytes => 2 ^ 32 ≤ bytes.length
  | levels + 1, .array values => 2 ^ 32 ≤ values.length ∨
      ∃ before v after, values = before ++ v :: after ∧ (∀ u ∈ before, Encodable levels u) ∧
        Overruns levels v
  | levels + 1, .dictionary entries => 2 ^ 32 ≤ entries.length ∨
      ∃ before e after, entries = before ++ e :: after ∧
        (∀ u ∈ before, u.1.1.length < 2 ^ 32 ∧ Encodable levels u.2) ∧
          (2 ^ 32 ≤ e.1.1.length ∨ Overruns levels e.2)

/-- The object is written, and of all the cuts of its bytes that one alone is accepted, as the
object. -/
def RoundTrips (o : XPCObject) : Prop :=
  ∃ bytes, encode o = .ok bytes ∧ decode bytes = .ok o ∧
    (∀ cut, cut <+: bytes → cut ≠ bytes → decode cut = .error .refused) ∧
      ∀ more, more ≠ [] → decode (bytes ++ more) = .error .refused

/-- What the codec is for: it carries the object, or refuses what it does not carry. -/
def Meets (o : XPCObject) : Prop :=
  (¬ Refused maximumDepth o → RoundTrips o) ∧
    (encode o = .error .refused ↔ Refused maximumDepth o)

/-! ## Writing lists -/

section AppendEach

variable {α : Type} {f : α → Except Stop (List UInt8)}

/-- What a function appends, nothing when it stops. -/
def written (r : Except Stop (List UInt8)) : List UInt8 :=
  match r with
  | .ok bytes => bytes
  | .error _ => []

theorem appendEach_ok : ∀ {xs : List α} {bytes : List UInt8}, appendEach f xs = .ok bytes →
    (∀ x ∈ xs, f x = .ok (written (f x))) ∧ bytes = xs.flatMap fun x => written (f x)
  | [], _, h => ⟨nofun, (Except.ok.inj h).symm⟩
  | x :: xs, bytes, h => by
      rw [appendEach] at h
      cases hx : f x with
      | error e => rw [hx] at h; cases h
      | ok b =>
        cases hxs : appendEach f xs with
        | error e => rw [hx, hxs] at h; cases h
        | ok bs =>
          rw [hx, hxs] at h
          obtain ⟨hall, rfl⟩ := appendEach_ok hxs
          refine ⟨fun y hy => ?_, ?_⟩
          · rcases List.mem_cons.mp hy with rfl | hy
            · rw [hx]; rfl
            · exact hall y hy
          · rw [List.flatMap_cons, hx]
            exact (Except.ok.inj h).symm

theorem appendEach_of_ok : ∀ {xs : List α}, (∀ x ∈ xs, ∃ bytes, f x = .ok bytes) →
    ∃ bytes, appendEach f xs = .ok bytes
  | [], _ => ⟨[], rfl⟩
  | x :: xs, h => by
      obtain ⟨b, hb⟩ := h x List.mem_cons_self
      obtain ⟨bs, hbs⟩ := appendEach_of_ok fun y hy => h y (List.mem_cons_of_mem _ hy)
      refine ⟨b ++ bs, ?_⟩
      rw [appendEach, hb, hbs]
      rfl

/-- **A list stops at its first element that stops.** -/
theorem appendEach_error {e : Stop} : ∀ {xs : List α}, appendEach f xs = .error e ↔
    ∃ before x after, xs = before ++ x :: after ∧ (∀ y ∈ before, ∃ bytes, f y = .ok bytes) ∧
      f x = .error e
  | [] => by
      refine ⟨nofun, ?_⟩
      rintro ⟨before, x, after, h, -⟩
      exact absurd h.symm (by simp)
  | x :: xs => by
      rw [appendEach]
      cases hx : f x with
      | error e' =>
        refine ⟨fun h => ⟨[], x, xs, rfl, nofun, hx.trans h⟩, ?_⟩
        rintro ⟨before, y, after, heq, hok, hy⟩
        cases before with
        | nil =>
          obtain ⟨rfl, -⟩ := List.cons.inj heq
          exact hx.symm.trans hy
        | cons b before =>
          obtain ⟨rfl, -⟩ := List.cons.inj heq
          obtain ⟨bytes, hb⟩ := hok x List.mem_cons_self
          exact absurd (hx.symm.trans hb) (by simp)
      | ok bytes =>
        have hrest :
            (do return bytes ++ (← appendEach f xs) : Except Stop (List UInt8)) = .error e ↔
            appendEach f xs = .error e := by
          cases appendEach f xs with
          | error e' => exact Iff.rfl
          | ok bs => exact ⟨nofun, nofun⟩
        refine (hrest.trans appendEach_error).trans ⟨?_, ?_⟩
        · rintro ⟨before, y, after, rfl, hok, hy⟩
          refine ⟨x :: before, y, after, rfl, fun z hz => ?_, hy⟩
          rcases List.mem_cons.mp hz with rfl | hz
          · exact ⟨bytes, hx⟩
          · exact hok z hz
        · rintro ⟨before, y, after, heq, hok, hy⟩
          cases before with
          | nil =>
            obtain ⟨rfl, -⟩ := List.cons.inj heq
            exact absurd (hx.symm.trans hy) (by simp)
          | cons b before =>
            obtain ⟨-, rfl⟩ := List.cons.inj heq
            exact ⟨before, y, after, rfl, fun z hz => hok z (List.mem_cons_of_mem _ hz), hy⟩

end AppendEach

/-! ## What the encoder comes to -/

section Parts

variable {tag : UInt8} {count : ℕ} {body : Except Stop (List UInt8)} {bytes : List UInt8} {e : Stop}

theorem tagged_ok : tagged tag body = .ok bytes ↔ ∃ b, body = .ok b ∧ bytes = tag :: b := by
  cases body with
  | error e' => exact ⟨nofun, nofun⟩
  | ok b =>
    exact ⟨fun h => ⟨b, rfl, (Except.ok.inj h).symm⟩, fun ⟨_, hb, h⟩ => by cases hb; rw [h]; rfl⟩

theorem tagged_error : tagged tag body = .error e ↔ body = .error e := by
  cases body with
  | error e' => exact Iff.rfl
  | ok b => exact ⟨nofun, nofun⟩

theorem appendCounted_ok : appendCounted count body = .ok bytes ↔
    count < 2 ^ 32 ∧ ∃ b, body = .ok b ∧ bytes = leBytes 4 count ++ b := by
  rw [appendCounted, appendUInt32]
  split_ifs with h
  · cases body with
    | error e' => exact ⟨nofun, nofun⟩
    | ok b =>
      exact ⟨fun hb => ⟨h, b, rfl, (Except.ok.inj hb).symm⟩,
        fun ⟨_, _, hb, heq⟩ => by cases hb; rw [heq]; rfl⟩
  · exact ⟨nofun, fun hb => absurd hb.1 h⟩

theorem appendCounted_error : appendCounted count body = .error e ↔
    (2 ^ 32 ≤ count ∧ e = .trap) ∨ (count < 2 ^ 32 ∧ body = .error e) := by
  rw [appendCounted, appendUInt32]
  split_ifs with h
  · rw [or_iff_right (fun hc => absurd hc.1 (not_le.mpr h)), and_iff_right h]
    cases body with
    | error e' => exact Iff.rfl
    | ok b => exact ⟨nofun, nofun⟩
  · rw [or_iff_left (fun hc => absurd hc.1 h), and_iff_right (not_lt.mp h)]
    exact ⟨fun he => (Except.error.inj he).symm, fun he => he ▸ rfl⟩

theorem appendBytes_ok {data : List UInt8} : appendBytes data = .ok bytes ↔
    data.length < 2 ^ 32 ∧ bytes = leBytes 4 data.length ++ data := by
  rw [appendBytes, appendCounted_ok]
  exact and_congr_right fun _ =>
    ⟨fun ⟨_, hb, h⟩ => by cases hb; exact h, fun h => ⟨data, rfl, h⟩⟩

theorem appendBytes_error {data : List UInt8} : appendBytes data = .error e ↔
    2 ^ 32 ≤ data.length ∧ e = .trap := by
  rw [appendBytes, appendCounted_error, or_iff_left (fun h => nomatch h.2)]

theorem appendEntry_ok {f : XPCObject → Except Stop (List UInt8)} {entry : CString × XPCObject} :
    appendEntry f entry = .ok bytes ↔ entry.1.1.length < 2 ^ 32 ∧
      ∃ b, f entry.2 = .ok b ∧ bytes = leBytes 4 entry.1.1.length ++ entry.1.1 ++ b := by
  rw [appendEntry]
  cases hkey : appendBytes entry.1.1 with
  | error e' => exact ⟨nofun, fun h => absurd h.1 (not_lt.mpr (appendBytes_error.mp hkey).1)⟩
  | ok key =>
    obtain ⟨hlen, rfl⟩ := appendBytes_ok.mp hkey
    cases f entry.2 with
    | error e' => exact ⟨nofun, nofun⟩
    | ok b =>
      exact ⟨fun h => ⟨hlen, b, rfl, (Except.ok.inj h).symm⟩,
        fun ⟨_, _, hb, h⟩ => by cases hb; rw [h]; rfl⟩

theorem appendEntry_error {f : XPCObject → Except Stop (List UInt8)} {entry : CString × XPCObject} :
    appendEntry f entry = .error e ↔ (2 ^ 32 ≤ entry.1.1.length ∧ e = .trap) ∨
      (entry.1.1.length < 2 ^ 32 ∧ f entry.2 = .error e) := by
  rw [appendEntry]
  cases hkey : appendBytes entry.1.1 with
  | error e' =>
    obtain ⟨hlen, rfl⟩ := appendBytes_error.mp hkey
    rw [or_iff_left (fun hc => absurd hc.1 (not_lt.mpr hlen)), and_iff_right hlen]
    exact ⟨fun he => (Except.error.inj he).symm, fun he => he ▸ rfl⟩
  | ok key =>
    obtain ⟨hlen, rfl⟩ := appendBytes_ok.mp hkey
    rw [or_iff_right (fun hc => absurd hc.1 (not_le.mpr hlen)), and_iff_right hlen]
    cases f entry.2 with
    | error e' => exact Iff.rfl
    | ok b => exact ⟨nofun, nofun⟩

end Parts

/-- **What is encodable is written, and nothing else is.** -/
theorem encodeValue_ok : ∀ {levels : ℕ} {o : XPCObject},
    (∃ bytes, encodeValue levels o = .ok bytes) ↔ Encodable levels o
  | 0, o => ⟨nofun, nofun⟩
  | _ + 1, .uint64 v => ⟨fun _ => trivial, fun _ => ⟨_, rfl⟩⟩
  | _ + 1, .int64 v => ⟨fun _ => trivial, fun _ => ⟨_, rfl⟩⟩
  | _ + 1, .bool v => ⟨fun _ => trivial, fun _ => ⟨_, rfl⟩⟩
  | _ + 1, .string v => by
      simp only [encodeValue, Encodable, tagged_ok, appendBytes_ok]
      exact ⟨fun ⟨_, _, h, _⟩ => h.1, fun h => ⟨_, _, ⟨h, rfl⟩, rfl⟩⟩
  | _ + 1, .data v => by
      simp only [encodeValue, Encodable, tagged_ok, appendBytes_ok]
      exact ⟨fun ⟨_, _, h, _⟩ => h.1, fun h => ⟨_, _, ⟨h, rfl⟩, rfl⟩⟩
  | levels + 1, .array values => by
      simp only [encodeValue, Encodable, tagged_ok, appendCounted_ok]
      constructor
      · rintro ⟨_, _, ⟨hlen, b, hb, -⟩, -⟩
        exact ⟨hlen, fun v hv => encodeValue_ok.mp ⟨_, (appendEach_ok hb).1 v hv⟩⟩
      · rintro ⟨hlen, hall⟩
        obtain ⟨b, hb⟩ := appendEach_of_ok fun v hv => encodeValue_ok.mpr (hall v hv)
        exact ⟨_, _, ⟨hlen, b, hb, rfl⟩, rfl⟩
  | levels + 1, .dictionary entries => by
      simp only [encodeValue, Encodable, tagged_ok, appendCounted_ok]
      constructor
      · rintro ⟨_, _, ⟨hlen, b, hb, -⟩, -⟩
        refine ⟨hlen, fun e he => ?_⟩
        obtain ⟨hkey, v, hv, -⟩ := appendEntry_ok.mp ((appendEach_ok hb).1 e he)
        exact ⟨hkey, encodeValue_ok.mp ⟨v, hv⟩⟩
      · rintro ⟨hlen, hall⟩
        obtain ⟨b, hb⟩ := appendEach_of_ok (f := appendEntry (encodeValue levels)) fun e he => by
          obtain ⟨hkey, henc⟩ := hall e he
          obtain ⟨v, hv⟩ := encodeValue_ok.mpr henc
          exact ⟨_, appendEntry_ok.mpr ⟨hkey, v, hv, rfl⟩⟩
        exact ⟨_, _, ⟨hlen, b, hb, rfl⟩, rfl⟩
  | _ + 1, .unsupported => ⟨nofun, nofun⟩

theorem appendEntry_ok_iff {levels : ℕ} {e : CString × XPCObject} :
    (∃ bytes, appendEntry (encodeValue levels) e = .ok bytes) ↔
      e.1.1.length < 2 ^ 32 ∧ Encodable levels e.2 := by
  simp only [appendEntry_ok, ← encodeValue_ok]
  exact ⟨fun ⟨_, h, b, hb, _⟩ => ⟨h, b, hb⟩, fun ⟨h, b, hb⟩ => ⟨_, h, b, hb, rfl⟩⟩

theorem le_or_lt_and {m n : ℕ} {P : Prop} : (m ≤ n ∨ (n < m ∧ P)) ↔ (m ≤ n ∨ P) :=
  or_congr_right' fun h => and_iff_right (not_le.mp h)

/-- **The encoder traps on exactly the objects that overrun it.** -/
theorem encodeValue_trap : ∀ {levels : ℕ} {o : XPCObject},
    encodeValue levels o = .error .trap ↔ Overruns levels o
  | 0, o => ⟨nofun, nofun⟩
  | _ + 1, .uint64 v => ⟨nofun, nofun⟩
  | _ + 1, .int64 v => ⟨nofun, nofun⟩
  | _ + 1, .bool v => ⟨nofun, nofun⟩
  | _ + 1, .string v => by
      simp only [encodeValue, Overruns, tagged_error, appendBytes_error, and_true]
  | _ + 1, .data v => by
      simp only [encodeValue, Overruns, tagged_error, appendBytes_error, and_true]
  | levels + 1, .array values => by
      simp only [encodeValue, Overruns, tagged_error, appendCounted_error, and_true,
        appendEach_error, encodeValue_ok, encodeValue_trap, le_or_lt_and]
  | levels + 1, .dictionary entries => by
      simp only [encodeValue, Overruns, tagged_error, appendCounted_error, and_true,
        appendEach_error, appendEntry_ok_iff, appendEntry_error, encodeValue_trap, le_or_lt_and]
  | _ + 1, .unsupported => ⟨nofun, nofun⟩

theorem Refused.item {levels : ℕ} {values : List XPCObject} {v : XPCObject} (hv : v ∈ values)
    (h : Refused levels v) : Refused (levels + 1) (.array values) := by
  rcases h with ⟨depth, h⟩ | ⟨depth, part, h, hle⟩
  · exact Or.inl ⟨depth + 1, .item hv h⟩
  · exact Or.inr ⟨depth + 1, part, .item hv h, Nat.succ_le_succ hle⟩

theorem Refused.entry {levels : ℕ} {entries : List (CString × XPCObject)}
    {e : CString × XPCObject} (he : e ∈ entries) (h : Refused levels e.2) :
    Refused (levels + 1) (.dictionary entries) := by
  rcases h with ⟨depth, h⟩ | ⟨depth, part, h, hle⟩
  · exact Or.inl ⟨depth + 1, @Occurs.entry _ _ _ e.1 _ he h⟩
  · exact Or.inr ⟨depth + 1, part, @Occurs.entry _ _ _ e.1 _ he h, Nat.succ_le_succ hle⟩

/-- What the encoder returns `false` for holds a part it does not carry. -/
theorem refused_of_encodeValue : ∀ {levels : ℕ} {o : XPCObject},
    encodeValue levels o = .error .refused → Refused levels o
  | 0, o, _ => Or.inr ⟨0, o, .here o, le_rfl⟩
  | _ + 1, .string v, h => by
      simp [encodeValue, tagged_error, appendBytes_error] at h
  | _ + 1, .data v, h => by
      simp [encodeValue, tagged_error, appendBytes_error] at h
  | levels + 1, .array values, h => by
      simp only [encodeValue, tagged_error, appendCounted_error, reduceCtorEq, and_false, false_or,
        appendEach_error] at h
      obtain ⟨-, before, v, after, rfl, -, hv⟩ := h
      exact (refused_of_encodeValue hv).item (by simp)
  | levels + 1, .dictionary entries, h => by
      simp only [encodeValue, tagged_error, appendCounted_error, reduceCtorEq, and_false, false_or,
        appendEach_error, appendEntry_error] at h
      obtain ⟨-, before, e, after, rfl, -, -, he⟩ := h
      exact (refused_of_encodeValue he).entry (by simp)
  | _ + 1, .unsupported, _ => Or.inl ⟨0, .here _⟩

/-- What is written is carried whole. -/
theorem Encodable.not_refused : ∀ {levels : ℕ} {o : XPCObject},
    Encodable levels o → ¬ Refused levels o := by
  have hdepth : ∀ {levels depth : ℕ} {part o : XPCObject}, Encodable levels o →
      Occurs depth part o → depth < levels ∧ part ≠ .unsupported := by
    intro levels depth part o h hocc
    induction hocc generalizing levels with
    | here o =>
      cases levels with
      | zero => exact absurd h (by simp [Encodable])
      | succ n => exact ⟨Nat.succ_pos n, fun heq => by subst heq; exact h⟩
    | item hv _ ih =>
      cases levels with
      | zero => exact absurd h (by simp [Encodable])
      | succ n => exact ⟨Nat.succ_lt_succ (ih (h.2 _ hv)).1, (ih (h.2 _ hv)).2⟩
    | entry hv _ ih =>
      cases levels with
      | zero => exact absurd h (by simp [Encodable])
      | succ n => exact ⟨Nat.succ_lt_succ (ih (h.2 _ hv).2).1, (ih (h.2 _ hv).2).2⟩
  rintro levels o h (⟨depth, hocc⟩ | ⟨depth, part, hocc, hle⟩)
  · exact (hdepth h hocc).2 rfl
  · exact absurd (hdepth h hocc).1 (not_lt.mpr hle)

/-! ## The round trip -/

/-- Entries under keys of their own are set in a dictionary one behind the other. -/
theorem foldl_setValue : ∀ (entries acc : List (CString × XPCObject)),
    ((acc ++ entries).map Prod.fst).Nodup →
      entries.foldl (fun es e => setValue es e.1 e.2) acc = acc ++ entries
  | [], acc, _ => (List.append_nil acc).symm
  | e :: entries, acc, h => by
      have hnew : e.1 ∉ acc.map Prod.fst := by
        intro hmem
        rw [List.map_append, List.map_cons, List.nodup_append] at h
        exact h.2.2 e.1 hmem e.1 List.mem_cons_self rfl
      rw [List.foldl_cons, setValue, if_neg hnew, foldl_setValue entries _ (by simpa using h)]
      simp

/-- Every value takes a byte at least. -/
theorem length_encodeValue_pos {levels : ℕ} {o : XPCObject} {bytes : List UInt8}
    (h : encodeValue levels o = .ok bytes) : 0 < bytes.length := by
  cases levels with
  | zero => cases h
  | succ n =>
    cases o with
    | unsupported => cases h
    | _ =>
      obtain ⟨b, -, rfl⟩ := tagged_ok.mp h
      exact Nat.succ_pos _

theorem length_le_flatMap {α : Type} {f : α → List UInt8} : ∀ {xs : List α},
    (∀ x ∈ xs, 0 < (f x).length) → xs.length ≤ (xs.flatMap f).length
  | [], _ => le_rfl
  | x :: xs, h => by
      have hx := h x List.mem_cons_self
      have ih := length_le_flatMap fun y hy => h y (List.mem_cons_of_mem x hy)
      rw [List.flatMap_cons, List.length_append, List.length_cons]
      omega

/-- **The decoder reads what the encoder wrote**, wherever it stands. -/
theorem reads_decodeValue : ∀ {levels : ℕ} {o : XPCObject} {bytes : List UInt8},
    o.IsMap → encodeValue levels o = .ok bytes → Reads (decodeValue levels) bytes o
  | levels + 1, .uint64 v, bytes, _, h => by
      obtain ⟨b, hb, rfl⟩ := tagged_ok.mp h
      cases hb
      refine (reads_takeUInt8 1).bind ((reads_takeUInt64 v).map ?_)
      rw [UInt64.ofNat_toNat]
  | levels + 1, .int64 v, bytes, _, h => by
      obtain ⟨b, hb, rfl⟩ := tagged_ok.mp h
      cases hb
      refine (reads_takeUInt8 2).bind ((reads_takeUInt64 v.toUInt64).map ?_)
      rw [UInt64.ofNat_toNat]
      rfl
  | levels + 1, .bool v, bytes, _, h => by
      obtain ⟨b, hb, rfl⟩ := tagged_ok.mp h
      cases hb
      refine (reads_takeUInt8 3).bind ((reads_takeUInt8 _).map ?_)
      cases v <;> rfl
  | levels + 1, .string v, bytes, _, h => by
      obtain ⟨b, hb, rfl⟩ := tagged_ok.mp h
      obtain ⟨hlen, rfl⟩ := appendBytes_ok.mp hb
      exact (reads_takeUInt8 4).bind ((reads_takeCString hlen).map rfl)
  | levels + 1, .data v, bytes, _, h => by
      obtain ⟨b, hb, rfl⟩ := tagged_ok.mp h
      obtain ⟨hlen, rfl⟩ := appendBytes_ok.mp hb
      exact (reads_takeUInt8 5).bind ((reads_takeBytes hlen).map rfl)
  | levels + 1, .array values, bytes, hmap, h => by
      obtain ⟨b, hb, rfl⟩ := tagged_ok.mp h
      obtain ⟨hlen, body, hbody, rfl⟩ := appendCounted_ok.mp hb
      obtain ⟨hall, rfl⟩ := appendEach_ok hbody
      have hcount := length_le_flatMap fun v hv => length_encodeValue_pos (hall v hv)
      have hloop : Reads
          (repeating (fun values => do return values ++ [← decodeValue levels]) values.length [])
          (values.flatMap fun v => written (encodeValue levels v))
          (values.foldl (fun values v => values ++ [v]) []) :=
        reads_repeating values [] fun acc v hv =>
          (reads_decodeValue (hmap.item hv) (hall v hv)).map rfl
      refine (reads_takeUInt8 6).bind (Reads.takeCount hlen hcount (hloop.map ?_))
      rw [List.foldl_append_eq_append, List.nil_append, ← List.flatMap_def, List.flatMap_singleton']
  | levels + 1, .dictionary entries, bytes, hmap, h => by
      obtain ⟨b, hb, rfl⟩ := tagged_ok.mp h
      obtain ⟨hlen, body, hbody, rfl⟩ := appendCounted_ok.mp hb
      obtain ⟨hall, rfl⟩ := appendEach_ok hbody
      have hentry : ∀ e ∈ entries, ∃ bytes, encodeValue levels e.2 = .ok bytes ∧
          e.1.1.length < 2 ^ 32 ∧ written (appendEntry (encodeValue levels) e)
            = (leBytes 4 e.1.1.length ++ e.1.1) ++ bytes := by
        intro e he
        obtain ⟨hkey, v, hv, heq⟩ := appendEntry_ok.mp (hall e he)
        exact ⟨v, hv, hkey, heq⟩
      have hcount : entries.length
          ≤ (entries.flatMap fun e => written (appendEntry (encodeValue levels) e)).length := by
        refine length_le_flatMap fun e he => ?_
        obtain ⟨v, hv, -, heq⟩ := hentry e he
        have := length_encodeValue_pos hv
        rw [heq, List.length_append]
        omega
      have hloop : Reads
          (repeating (fun entries => do
            let key ← takeCString
            let value ← decodeValue levels
            return setValue entries key value) entries.length [])
          (entries.flatMap fun e => written (appendEntry (encodeValue levels) e))
          (entries.foldl (fun es e => setValue es e.1 e.2) []) := by
        refine reads_repeating entries [] fun acc e he => ?_
        obtain ⟨v, hv, hkey, heq⟩ := hentry e he
        rw [heq]
        exact (reads_takeCString hkey).bind
          ((reads_decodeValue (@IsMap.entry _ hmap e.1 _ he) hv).map rfl)
      refine (reads_takeUInt8 7).bind (Reads.takeCount hlen hcount (hloop.map ?_))
      rw [foldl_setValue entries [] (hmap 0 entries (.here _)), List.nil_append]

/-! ## What the codec does, of every object and of all bytes -/

/-- **No bytes make the decoder read past their end.** -/
theorem decode_ne_trap (bytes : List UInt8) : decode bytes ≠ .error .trap := by
  have hsteady := steady_decodeValue maximumDepth [] bytes
  have hstart : ({ bytes } : Cursor) = Cursor.between [] bytes := rfl
  rw [decode, hstart]
  rcases hsteady with h | ⟨o, used, rest, -, h⟩
  · rw [h]
    exact nofun
  · have hnil := h []
    rw [List.append_nil] at hnil
    rw [hnil]
    dsimp only [bind, Except.bind]
    split_ifs <;> exact nofun

/-- A cursor that stands at the end is what `decode` asks for. -/
theorem decode_of_between {bytes used rest : List UInt8} {o : XPCObject}
    (hbytes : bytes = used ++ rest)
    (h : decodeValue maximumDepth (Cursor.between [] bytes) = .ok (o, Cursor.between used rest)) :
    decode bytes = if rest = [] then .ok o else .error .refused := by
  have hstart : ({ bytes } : Cursor) = Cursor.between [] bytes := rfl
  have hend : (Cursor.between used rest).offset = bytes.length ↔ rest = [] := by
    rw [hbytes, List.length_append, ← List.length_eq_zero_iff]
    dsimp only [Cursor.between]
    omega
  rw [decode, hstart, h]
  exact if_congr hend rfl rfl

/-- **The round trip**, and the cuts that are refused. -/
theorem roundTrips_of_encode {o : XPCObject} {bytes : List UInt8} (hmap : o.IsMap)
    (h : encode o = .ok bytes) : RoundTrips o := by
  have hreads := reads_decodeValue hmap h []
  have hwhole := hreads []
  rw [List.append_nil, List.nil_append] at hwhole
  refine ⟨bytes, h, ?_, fun cut hcut hne => ?_, fun more hmore => ?_⟩
  · rw [decode_of_between (List.append_nil bytes).symm hwhole, if_pos rfl]
  · -- What is read off a cut would be read off the whole, with the rest of it left over.
    obtain ⟨more, rfl⟩ := hcut
    have hmore : more ≠ [] := fun hnil => hne (by rw [hnil, List.append_nil])
    rcases steady_decodeValue maximumDepth [] cut with hrefused | ⟨o', used, rest, rfl, hok⟩
    · show (decodeValue maximumDepth (Cursor.between [] cut) >>= _) = _
      rw [hrefused]
      rfl
    · have hall := hok more
      rw [hwhole, List.nil_append] at hall
      have hoffset := congrArg (fun r => r.2.offset) (Except.ok.inj hall)
      have hpos := List.length_pos_iff.mpr hmore
      simp only [Cursor.between, List.length_append] at hoffset
      omega
  · have hmore' := hreads more
    rw [List.nil_append] at hmore'
    rw [decode_of_between rfl hmore', if_neg hmore]

theorem Overruns.not_meets {o : XPCObject} (hover : Overruns maximumDepth o) : ¬ Meets o := by
  intro h
  have htrap : encode o = .error .trap := encodeValue_trap.mpr hover
  by_cases hrefused : Refused maximumDepth o
  · exact absurd (htrap.symm.trans (h.2.mpr hrefused)) (by simp)
  · obtain ⟨bytes, hbytes, -⟩ := h.1 hrefused
    exact absurd (htrap.symm.trans hbytes) (by simp)

theorem meets_of_not_overruns {o : XPCObject} (hmap : o.IsMap)
    (hover : ¬ Overruns maximumDepth o) : Meets o := by
  cases henc : encode o with
  | ok bytes =>
    have hcarried := (encodeValue_ok.mp ⟨bytes, henc⟩).not_refused
    exact ⟨fun _ => roundTrips_of_encode hmap henc,
      ⟨fun h => absurd (henc.symm.trans h) (by simp), fun h => absurd h hcarried⟩⟩
  | error e =>
    cases e with
    | trap => exact absurd (encodeValue_trap.mp henc) hover
    | refused =>
      have hrefused := refused_of_encodeValue henc
      exact ⟨fun h => absurd hrefused h, ⟨fun _ => hrefused, fun _ => henc⟩⟩

theorem Encodable.not_overruns {levels : ℕ} {o : XPCObject} (h : Encodable levels o) :
    ¬ Overruns levels o := by
  intro hover
  obtain ⟨bytes, hbytes⟩ := encodeValue_ok.mpr h
  exact absurd (hbytes.symm.trans (encodeValue_trap.mpr hover)) (by simp)

/-- **The codec meets its purpose on exactly the objects that do not overrun it**; and no bytes
whatever make the decoder read past their end. -/
theorem meets_iff (o : XPCObject) (hmap : o.IsMap) :
    (Meets o ↔ ¬ Overruns maximumDepth o) ∧ ∀ bytes, decode bytes ≠ .error .trap :=
  ⟨⟨fun h hover => hover.not_meets h, meets_of_not_overruns hmap⟩, decode_ne_trap⟩

/-- A request as the app sends one: an operation, a session, and a list of texts. -/
def sampleRequest : XPCObject :=
  .dictionary [(⟨[0x6F, 0x70], by decide⟩, .uint64 7),
    (⟨[0x69, 0x64], by decide⟩, .array [.bool true, .string ⟨[0x61], by decide⟩])]

theorem isMap_sampleRequest : sampleRequest.IsMap := by
  intro depth entries h
  cases h with
  | here => decide
  | entry hv h =>
    simp only [List.mem_cons, Prod.mk.injEq, List.not_mem_nil, or_false] at hv
    rcases hv with ⟨-, rfl⟩ | ⟨-, rfl⟩
    · cases h
    · cases h with
      | item hv h =>
        simp only [List.mem_cons, List.not_mem_nil, or_false] at hv
        rcases hv with rfl | rfl <;> cases h

theorem encodable_sampleRequest : Encodable maximumDepth sampleRequest := by
  simp [sampleRequest, maximumDepth, Encodable]

theorem meets_sampleRequest : sampleRequest.IsMap ∧ Meets sampleRequest :=
  ⟨isMap_sampleRequest,
    (meets_iff sampleRequest isMap_sampleRequest).1.mpr encodable_sampleRequest.not_overruns⟩

/-- The length of a data object of `2 ^ 32` bytes does not fit its field. -/
theorem not_meets_data_overlong : ¬ Meets (.data (List.replicate (2 ^ 32) 0)) := by
  have hover : Overruns maximumDepth (.data (List.replicate (2 ^ 32) 0)) := by
    rw [maximumDepth, Overruns, List.length_replicate]
  exact hover.not_meets

end IOCodec
