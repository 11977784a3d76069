import IGhostVT.Lib.Json
import IGhostVT.Relay.DropAccounting
import IGhostVT.Relay.HostList
import Mathlib.Algebra.Order.BigOperators.Group.List

/-!
# Relay/DropListing — the drop zone's files, as one frame

`ls` answers with one frame that has a row for every file.  What a row may hold is checked where the
file is put and where it is committed, so that the most files at the longest names fit: a row is
never more than `rowRoom` bytes, its comma included (`length_json_entry_le`), and `run_listFits` has
the answer of every zone that is reached.

`DropListing` is the zone with what `put` and `commit` said of each file.
-/

open Relay

namespace Relay

/-! ## The program -/

/-- The longest file name, in UTF-8 bytes. -/
def maxDropName : ℕ := 255

def maxDropFingerprint : ℕ := 128

def maxDropMtime : ℤ := 100000000000

/-- Controls, and the format characters that reorder or hide text. -/
def isForbidden (c : Char) : Bool :=
  let r := c.toNat
  r < 0x20 || r = 0x7F || (0x80 ≤ r && r < 0xA0) || r = 0x2028 || r = 0x2029
    || (0x200B ≤ r && r ≤ 0x200F) || (0x202A ≤ r && r ≤ 0x202E) || (0x2066 ≤ r && r ≤ 0x2069)
    || r = 0xFEFF

/-- A single path component a person could have typed.  What a string is read from JSON as is valid
UTF-8. -/
def validDropName (name : List Char) : Bool :=
  if name = [] ∨ byteCount name > maxDropName ∨ name = ['.'] ∨ name = ['.', '.'] then false
  else if name.any fun c => c = '/' ∨ c = '\\' then false
  else name.all fun c => !isForbidden c

def validFingerprint (s : List Char) : Bool :=
  if byteCount s > maxDropFingerprint then false
  else s.all fun c => ('0' ≤ c && c ≤ '9') || ('a' ≤ c && c ≤ 'z') || c = ':'

/-- 64 lower-case hex digits. -/
def validSHA256 (s : List Char) : Bool :=
  s.length = 64 ∧ s.all fun c => ('0' ≤ c && c ≤ '9') || ('a' ≤ c && c ≤ 'f')

/-- A `put` that starts a file. -/
structure PutRequest where
  name : List Char
  size : ℤ
  mode : ℕ
  mtime : ℤ
  encoding : List Char
  fingerprint : List Char
deriving DecidableEq

/-- What `put` checks. -/
def PutRequest.isValid (r : PutRequest) : Bool :=
  validDropName r.name && !(r.size < 0 || r.size > 2 ^ 53 || r.mode > 0o777
    || r.mtime > maxDropMtime || r.mtime < -maxDropMtime
    || (r.encoding ≠ "zstd".toList && r.encoding ≠ "none".toList))
    && validFingerprint r.fingerprint

def hexText (bytes : List UInt8) : List Char :=
  bytes.flatMap fun b => [Nat.digitChar (b.toNat / 16), Nat.digitChar (b.toNat % 16)]

/-- A random UUID, from sixteen random bytes. -/
def newDropID (random : Fin 16 → UInt8) : List Char :=
  let b := List.ofFn fun i =>
    if i = 6 then random i &&& 0x0F ||| 0x40
    else if i = 8 then random i &&& 0x3F ||| 0x80
    else random i
  hexText (b.take 4) ++ '-' :: hexText ((b.drop 4).take 2) ++ '-' :: hexText ((b.drop 6).take 2)
    ++ '-' :: hexText ((b.drop 8).take 2) ++ '-' :: hexText (b.drop 10)

/-- A number as 64 bits hold it. -/
def int64 (i : ℤ) : ℤ := Int.bmod i (2 ^ 64)

/-- What the manifest says of a file but for what the zone counts. -/
structure DropRow where
  id : List Char
  request : PutRequest
  created : ℤ
  /-- Empty until the commit. -/
  sha256 : List Char := []
deriving DecidableEq

/-- A file's manifest row. -/
structure DropEntry where
  id : List Char
  name : List Char
  size : ℤ
  stored : ℤ
  encoding : List Char
  mode : ℕ
  mtime : ℤ
  sha256 : List Char
  fingerprint : List Char
  created : ℤ
  complete : Bool
  expires : Option ℤ
deriving DecidableEq

namespace DropEntry

/-- A member that is left out when it is empty. -/
def optional (name : String) (s : List Char) : List (List UInt8) :=
  if s = [] then [] else [Json.member name (Json.string false s)]

/-- Not escaped for HTML. -/
def json (e : DropEntry) : List UInt8 :=
  Json.object
    ([Json.member "id" (Json.string false e.id), Json.member "name" (Json.string false e.name),
        Json.member "size" (Json.integer e.size), Json.member "stored" (Json.integer e.stored),
        Json.member "encoding" (Json.string false e.encoding),
        Json.member "mode" (Json.integer e.mode), Json.member "mtime" (Json.integer e.mtime)]
      ++ optional "sha256" e.sha256 ++ optional "fingerprint" e.fingerprint
      ++ [Json.member "created" (Json.integer e.created),
        Json.member "complete" (Json.bool e.complete)]
      ++ (e.expires.map fun at' => Json.member "expires" (Json.integer at')).toList)

/-- By the time it was made, then by id. -/
def le (e e' : DropEntry) : Bool :=
  e.created < e'.created || (e.created = e'.created && e.id ≤ e'.id)

end DropEntry

/-- The body of an `ls` answer. -/
def dropListBody (entries : List DropEntry) : List UInt8 :=
  Json.object (Json.member "ok" (Json.bool true) ::
    if entries = [] then [] else [Json.member "files" (Json.array (entries.map DropEntry.json))])

end Relay

structure DropListing where
  zone : DropZone
  rows : Dict ℕ DropRow := ∅

namespace DropListing

/-- What can happen: a file is put, an upload is committed, or anything else. -/
inductive Event
  | put (conn : ℕ) (request : PutRequest) (hasRoom created : Bool) (random : Fin 16 → UInt8)
      (now : ℤ)
  | commit (conn : ℕ) (sha256 : List Char)
  | zone (event : DropZone.Event)

/-- The file a connection is uploading. -/
def uploaded (z : DropZone) (conn : ℕ) : Option ℕ :=
  match z.sessions.get? conn with
  | none => none
  | some d =>
    match d.task with
    | .uploading id => some id
    | _ => none

def put (s : DropListing) (conn : ℕ) (request : PutRequest) (hasRoom created : Bool)
    (random : Fin 16 → UInt8) (now : ℤ) : DropListing :=
  let zone := s.zone.step (.act conn (.put request.isValid hasRoom created))
  let row : DropRow := { id := newDropID random, request, created := int64 now }
  { zone
    rows := if (zone.files.get? s.zone.ids).isSome then s.rows.insert s.zone.ids row else s.rows }

/-- A commit without a checksum ends the upload. -/
def commit (s : DropListing) (conn : ℕ) (sha256 : List Char) : DropListing :=
  if validSHA256 sha256 then
    let rows :=
      match uploaded s.zone conn with
      | none => s.rows
      | some id =>
        match s.rows.get? id with
        | none => s.rows
        | some row => s.rows.insert id { row with sha256 }
    { zone := s.zone.step (.act conn .commit), rows }
  else { s with zone := s.zone.step (.act conn .abandon) }

def step (s : DropListing) : Event → DropListing
  | .put conn request hasRoom created random now => s.put conn request hasRoom created random now
  | .commit conn sha256 => s.commit conn sha256
  | .zone (.act _ (.put ..)) | .zone (.act _ .commit) => s
  | .zone event => { s with zone := s.zone.step event }

/-- A file as it is listed. -/
def entry (f : DropFile) (row : DropRow) : DropEntry where
  id := row.id
  name := row.request.name
  size := row.request.size
  stored := int64 f.stored
  encoding := row.request.encoding
  mode := row.request.mode
  mtime := row.request.mtime
  sha256 := row.sha256
  fingerprint := row.request.fingerprint
  created := row.created
  complete := f.complete
  expires := if f.holders = 0 then f.expires.map fun time : ℕ => int64 time else none

/-- Every file's row, before they are sorted. -/
def unsorted (s : DropListing) : List DropEntry :=
  s.zone.files.entries.filterMap fun (id, f) => (s.rows.get? id).map (entry f)

/-- `entriesLocked`. -/
def entries (s : DropListing) : List DropEntry := s.unsorted.mergeSort DropEntry.le

/-- What an `ls` is answered with: none when the frame is too large. -/
def list (s : DropListing) : Option (List UInt8) := encodeFrame (dropListBody s.entries)

end DropListing

/-! ## What the zone's events do to its files -/

namespace DropZone

variable {z z' : DropZone} {id conn : ℕ} {d : DropSession}

/-- No file is there that was not. -/
structure Keeps (z z' : DropZone) : Prop where
  limits : z'.limits = z.limits
  files : ∀ id, (z'.files.get? id).isSome → (z.files.get? id).isSome

theorem Keeps.of_eq (hlimits : z'.limits = z.limits) (hfiles : z'.files = z.files) : Keeps z z' :=
  ⟨hlimits, fun _ h => hfiles ▸ h⟩

theorem Keeps.trans {z'' : DropZone} (h : Keeps z z') (h' : Keeps z' z'') : Keeps z z'' :=
  ⟨h'.limits.trans h.limits, fun id hid => h.files id (h'.files id hid)⟩

theorem Keeps.of_erase (hlimits : z'.limits = z.limits) (hfiles : z'.files = z.files.erase id) :
    Keeps z z' := by
  refine ⟨hlimits, fun id' h => ?_⟩
  rw [hfiles] at h
  obtain ⟨f, hf⟩ := Option.isSome_iff_exists.mp h
  exact Option.isSome_of_eq_some (get?_of_erase hf)

theorem Keeps.of_insert {f f' : DropFile} (hget : z.files.get? id = some f)
    (hlimits : z'.limits = z.limits) (hfiles : z'.files = z.files.insert id f') : Keeps z z' := by
  refine ⟨hlimits, fun id' h => ?_⟩
  rw [hfiles, Dict.get?_insert] at h
  split at h
  next heq => exact Option.isSome_of_eq_some (heq ▸ hget)
  next => exact h

theorem keeps_holdLocked {f f' : DropFile} (hget : z.files.get? id = some f) (task : DropTask) :
    Keeps z (z.holdLocked conn d id f' task) := by
  unfold holdLocked
  split
  · exact .of_insert hget rfl rfl
  · exact .of_insert hget rfl rfl

theorem keeps_letGo (z : DropZone) (time id : ℕ) : Keeps z (letGo time z id) := by
  unfold letGo
  split
  · exact .of_eq rfl rfl
  next f hf => exact .of_insert hf rfl rfl

theorem keeps_foldl_letGo (time : ℕ) : ∀ (ids : List ℕ) (z : DropZone),
    Keeps z (ids.foldl (letGo time) z)
  | [], _ => .of_eq rfl rfl
  | id :: ids, z => (keeps_letGo z time id).trans (keeps_foldl_letGo time ids _)

theorem keeps_foldl_expire (now : ℕ) : ∀ (es : List (ℕ × DropFile)) (z : DropZone),
    Keeps z (es.foldl (fun z e => if expires now e.2 then z.removeLocked e.1 e.2 else z) z)
  | [], _ => .of_eq rfl rfl
  | (id, f) :: es, z => by
    rw [List.foldl_cons]
    refine Keeps.trans ?_ (keeps_foldl_expire now es _)
    split
    · exact .of_erase rfl rfl
    · exact .of_eq rfl rfl

/-- A session's action makes no file, but for a `put`. -/
theorem keeps_act (z : DropZone) (conn : ℕ) (d : DropSession) (action : Action) (task : DropTask)
    (hput : ∀ v r c, action ≠ .put v r c) : Keeps z (z.act conn d action task) := by
  unfold act
  split
  case h_2 => exact absurd rfl (hput _ _ _)
  case h_3 id =>
    unfold resume
    split
    · exact .of_eq rfl rfl
    next f hf =>
      split_ifs
      · exact .of_eq rfl rfl
      · exact .of_eq rfl rfl
      · exact keeps_holdLocked hf _
  case h_4 => split <;> exact .of_eq rfl rfl
  case h_5 id =>
    unfold reserve
    split
    · exact .of_eq rfl rfl
    · split
      · exact .of_eq rfl rfl
      next f hf =>
        split_ifs
        · exact .of_eq rfl rfl
        · exact .of_eq rfl rfl
        · exact .of_insert hf rfl rfl
  case h_6 =>
    unfold copied unreserve
    split
    · split
      · exact .of_eq rfl rfl
      next f hf => exact .of_insert hf rfl rfl
    · exact .of_eq rfl rfl
  case h_7 =>
    split
    · exact .of_eq rfl rfl
    · exact .of_erase rfl rfl
  case h_8 =>
    unfold commit
    split
    · exact .of_eq rfl rfl
    next f hf => exact .of_insert hf rfl rfl
  case h_10 =>
    unfold stopWriting
    split
    · exact .of_eq rfl rfl
    next f hf => exact .of_insert hf rfl rfl
  case h_11 =>
    unfold get
    split
    · exact .of_eq rfl rfl
    next f hf =>
      split_ifs
      · exact .of_eq rfl rfl
      · exact keeps_holdLocked hf _
      · exact .of_eq rfl rfl
  case h_12 =>
    unfold remove
    split
    · exact .of_eq rfl rfl
    · split
      · exact .of_eq rfl rfl
      · exact .of_erase rfl rfl
  case h_13 | h_14 =>
    have herase : Keeps z { z with sessions := z.sessions.erase conn } := .of_eq rfl rfl
    exact herase.trans (keeps_foldl_letGo _ _ _)
  all_goals exact .of_eq rfl rfl

/-- What happens makes no file, but for a `put`. -/
theorem keeps_step (z : DropZone) (e : Event) (hput : ∀ conn v r c, e ≠ .act conn (.put v r c)) :
    Keeps z (z.step e) := by
  cases e with
  | admitSession conn =>
    simp only [step, admitSession]
    split_ifs <;> exact .of_eq rfl rfl
  | act conn action =>
    simp only [step]
    split
    · exact .of_eq rfl rfl
    · exact keeps_act z conn _ action _ fun v r c h => hput conn v r c (h ▸ rfl)
  | expire now => exact keeps_foldl_expire now _ z
  | close =>
    simp only [step, close]
    split
    · exact .of_eq rfl rfl
    · exact ⟨rfl, fun id h => absurd h (by rw [Dict.get?_empty]; exact Bool.false_ne_true)⟩

/-- A `put` makes the file of the next id, when its request is valid. -/
theorem step_put (z : DropZone) (conn : ℕ) (valid hasRoom created : Bool) :
    (z.step (.act conn (.put valid hasRoom created))).limits = z.limits
      ∧ ∀ id, ((z.step (.act conn (.put valid hasRoom created))).files.get? id).isSome →
          (z.files.get? id).isSome ∨ id = z.ids ∧ valid = true := by
  have hstays : ∀ z' : DropZone, z'.limits = z.limits → z'.files = z.files →
      z'.limits = z.limits ∧ ∀ id, (z'.files.get? id).isSome →
        (z.files.get? id).isSome ∨ id = z.ids ∧ valid = true :=
    fun z' hlimits hfiles => ⟨hlimits, fun id h => .inl (hfiles ▸ h)⟩
  simp only [step]
  split
  · exact hstays _ rfl rfl
  next d hd =>
    cases d.task with
    | ready =>
      simp only [act]
      split_ifs with hvalid hmade
      · unfold put
        dsimp only
        split_ifs
        · exact hstays _ rfl rfl
        · exact hstays _ rfl rfl
        · have hnew : ∀ (z' : DropZone) (f : DropFile), z'.limits = z.limits →
              z'.files = z.files.insert z.ids f → z'.limits = z.limits ∧
                ∀ id, (z'.files.get? id).isSome →
                  (z.files.get? id).isSome ∨ id = z.ids ∧ valid = true := by
            refine fun z' f hlimits hfiles => ⟨hlimits, fun id h => ?_⟩
            rw [hfiles, Dict.get?_insert] at h
            split at h
            next heq => exact .inr ⟨heq.symm, hvalid⟩
            next => exact .inl h
          unfold holdLocked
          split
          · exact hnew _ _ rfl rfl
          · exact hnew _ _ rfl rfl
      · exact hstays _ rfl rfl
      · exact hstays _ rfl rfl
    | _ => exact hstays _ rfl rfl

end DropZone

/-! ## What a row costs -/

namespace Relay

/-- Nothing a name may hold is written as `\u`. -/
theorem cost_le_of_not_isForbidden {c : Char} (h : isForbidden c = false) :
    Json.cost false c ≤ 2 * c.utf8Size := by
  have hpos := c.utf8Size_pos
  unfold Json.cost
  split
  · omega
  · rw [if_neg]
    · omega
    · simp only [isForbidden, Bool.or_eq_false_iff, decide_eq_false_iff_not] at h
      simp only [Json.isUnicodeEscaped, Bool.false_and, Bool.or_false, Bool.or_eq_true,
        decide_eq_true_eq]
      omega

theorem costs_le_of_validDropName {name : List Char} (h : validDropName name = true) :
    Json.costs false name ≤ 2 * maxDropName := by
  unfold validDropName at h
  split_ifs at h with hshape hseparator
  have hname : byteCount name ≤ maxDropName := by
    by_contra hlong
    exact hshape (.inr (.inl (not_le.mp hlong)))
  have hcost : ∀ c ∈ name, Json.cost false c ≤ 2 * c.utf8Size := by
    intro c hc
    have hallowed := List.all_eq_true.mp h c hc
    exact cost_le_of_not_isForbidden (by simpa using hallowed)
  calc Json.costs false name
      ≤ (name.map fun c => 2 * c.utf8Size).sum := List.sum_le_sum hcost
    _ = 2 * byteCount name := List.sum_map_mul_left ..
    _ ≤ 2 * maxDropName := Nat.mul_le_mul_left 2 hname

theorem isPlain_of_range {c : Char} {last : Char} (hlast : last ≤ 'z')
    (h : ('0' ≤ c ∧ c ≤ '9') ∨ ('a' ≤ c ∧ c ≤ last)) : Json.isPlain c = true := by
  simp only [Char.le_def, UInt32.le_iff_toNat_le] at h hlast
  delta Json.isPlain Char.isAlphanum Char.isAlpha Char.isUpper Char.isLower Char.isDigit
  simp only [Bool.or_eq_true, Bool.and_eq_true, decide_eq_true_eq, ge_iff_le,
    UInt32.le_iff_toNat_le]
  simp only [UInt32.reduceToNat, Char.reduceVal] at h hlast ⊢
  omega

theorem costs_le_of_validFingerprint {s : List Char} (h : validFingerprint s = true) :
    Json.costs false s ≤ maxDropFingerprint := by
  unfold validFingerprint at h
  split_ifs at h with hlong
  have hplain : ∀ c ∈ s, Json.isPlain c = true := by
    intro c hc
    have hc := List.all_eq_true.mp h c hc
    simp only [Bool.or_eq_true, Bool.and_eq_true, decide_eq_true_eq] at hc
    rcases hc with hc | rfl
    · exact isPlain_of_range le_rfl hc
    · rfl
  rw [Json.costs_of_isPlain false hplain, ← Json.byteCount_of_isPlain hplain]
  exact not_lt.mp hlong

theorem costs_of_validSHA256 {s : List Char} (h : validSHA256 s = true) :
    Json.costs false s = 64 := by
  obtain ⟨hlength, hall⟩ := of_decide_eq_true h
  rw [Json.costs_of_isPlain false fun c hc => ?_, hlength]
  have hc := List.all_eq_true.mp hall c hc
  simp only [Bool.or_eq_true, Bool.and_eq_true, decide_eq_true_eq] at hc
  exact isPlain_of_range (by decide) hc

theorem length_hexText (bytes : List UInt8) : (hexText bytes).length = 2 * bytes.length := by
  simp only [hexText, List.length_flatMap, List.length_cons, List.length_nil, List.map_const',
    List.sum_replicate_nat]
  omega

theorem isPlain_of_mem_hexText {bytes : List UInt8} {c : Char} (h : c ∈ hexText bytes) :
    Json.isPlain c = true := by
  obtain ⟨b, -, hc⟩ := List.mem_flatMap.mp h
  have hdigit : ∀ n < 16, Json.isPlain (Nat.digitChar n) = true := by decide
  have hlt := b.toNat_lt
  simp only [List.mem_cons, List.not_mem_nil, or_false] at hc
  rcases hc with rfl | rfl
  · exact hdigit _ (by omega)
  · exact hdigit _ (by omega)

/-- An id is 36 letters, digits and hyphens. -/
theorem costs_newDropID (random : Fin 16 → UInt8) : Json.costs false (newDropID random) = 36 := by
  rw [Json.costs_of_isPlain]
  · simp only [newDropID, List.length_append, List.length_cons, length_hexText, List.length_take,
      List.length_drop, List.length_ofFn]
    omega
  · intro c hc
    simp only [newDropID, List.append_assoc, List.cons_append, List.mem_append, List.mem_cons] at hc
    rcases hc with hc | rfl | hc | rfl | hc | rfl | hc | rfl | hc
    all_goals first
      | exact isPlain_of_mem_hexText hc
      | rfl

theorem length_int64_le (i : ℤ) : (Json.integer (int64 i)).length ≤ 20 := by
  refine Json.length_integer_le (by norm_num) ?_
  have hlo := Int.le_bmod (x := i) (m := 2 ^ 64) (by norm_num)
  have hhi := Int.bmod_lt (x := i) (m := 2 ^ 64) (by norm_num)
  rw [int64]
  omega

/-- A row that `put` and `commit` let in. -/
structure DropRow.IsSound (row : DropRow) : Prop where
  id : Json.costs false row.id = 36
  request : row.request.isValid = true
  created : (Json.integer row.created).length ≤ 20
  sha256 : row.sha256 = [] ∨ validSHA256 row.sha256 = true

end Relay

namespace DropListing

variable {s : DropListing}

/-- The most a row is, its comma included. -/
def rowRoom : ℕ := 971

theorem length_optional_le (name : String) {text : List Char} {k : ℕ}
    (h : Json.costs false text ≤ k) :
    ((DropEntry.optional name text).map fun m => m.length + 1).sum ≤ name.toList.length +
      k + 6 := by
  unfold DropEntry.optional
  split
  · exact Nat.zero_le _
  · simp only [List.map_cons, List.map_nil, List.sum_cons, List.sum_nil, Json.length_member,
      Json.length_string]
    omega

/-- What `put` promises of a request's lengths. -/
theorem length_request_le {r : PutRequest} (h : r.isValid = true) :
    Json.costs false r.name ≤ 510 ∧ (Json.integer r.size).length ≤ 16
      ∧ (Json.integer r.mode).length ≤ 3 ∧ (Json.integer r.mtime).length ≤ 13
      ∧ Json.costs false r.encoding = 4 ∧ Json.costs false r.fingerprint ≤ 128 := by
  simp only [PutRequest.isValid, Bool.and_eq_true, Bool.not_eq_true', Bool.or_eq_false_iff,
    decide_eq_false_iff_not, not_lt, Bool.and_eq_false_iff] at h
  obtain ⟨⟨hname, ⟨⟨⟨⟨hsize, hsizeMax⟩, hmode⟩, hmtime⟩, hmtimeMin⟩, hencoding⟩, hfingerprint⟩ := h
  simp only [maxDropMtime] at hmtime hmtimeMin
  refine ⟨costs_le_of_validDropName hname, ?_, ?_, ?_, ?_,
    costs_le_of_validFingerprint hfingerprint⟩
  · exact Json.length_integer_le_of_nonneg hsize (by norm_num) (by omega)
  · exact Json.length_integer_le_of_nonneg (Int.natCast_nonneg _) (by norm_num) (by omega)
  · exact Json.length_integer_le (by norm_num) (by omega)
  · have heither : r.encoding = "zstd".toList ∨ r.encoding = "none".toList := by
      simpa only [not_not] using hencoding
    rcases heither with heq | heq
    · rw [heq]
      decide
    · rw [heq]
      decide

/-- **A row is never more than its room.** -/
theorem length_json_entry_le {row : DropRow} (h : row.IsSound) (f : DropFile) :
    (entry f row).json.length + 1 ≤ rowRoom := by
  obtain ⟨hname, hsize, hmode, hmtime, hencoding, hfingerprint⟩ := length_request_le h.request
  have hstored := length_int64_le f.stored
  have hbool : (Json.bool f.complete).length ≤ 5 := by cases f.complete <;> decide
  have hid := h.id
  have hfingerprint := length_optional_le "fingerprint" hfingerprint
  have hsha256 : Json.costs false row.sha256 ≤ 64 := by
    rcases h.sha256 with heq | hvalid
    · rw [heq]
      exact Nat.zero_le _
    · exact (costs_of_validSHA256 hvalid).le
  have hsha256 := length_optional_le "sha256" hsha256
  have hexpires : (((entry f row).expires.map fun time =>
      Json.member "expires" (Json.integer time)).toList.map fun m => m.length + 1).sum ≤ 31 := by
    dsimp only [entry]
    split
    · cases f.expires with
      | none => exact Nat.zero_le _
      | some time =>
        have htime := length_int64_le time
        have hname : "expires".toList.length = 7 := by decide
        rw [Option.map_some, Option.map_some, Option.toList_some, List.map_singleton,
          List.sum_singleton, Json.length_member]
        omega
    · exact Nat.zero_le _
  rw [DropEntry.json, Json.length_object (by simp)]
  simp only [List.map_append, List.sum_append, List.map_cons, List.map_nil, List.sum_cons,
    List.sum_nil, Json.length_member, Json.length_string]
  have hnames : "id".toList.length = 2 ∧ "name".toList.length = 4 ∧ "size".toList.length = 4
      ∧ "stored".toList.length = 6 ∧ "encoding".toList.length = 8 ∧ "mode".toList.length = 4
      ∧ "mtime".toList.length = 5 ∧ "sha256".toList.length = 6 ∧ "fingerprint".toList.length = 11
      ∧ "created".toList.length = 7 ∧ "complete".toList.length = 8 := by decide
  have hcreated := h.created
  dsimp only [entry] at hexpires ⊢
  rw [rowRoom]
  omega

/-! ## Runs -/

/-- Every file has a row that was let in. -/
structure Listed (limits : DropLimits) (s : DropListing) : Prop where
  sound : DropZone.Sound s.zone
  limits : s.zone.limits = limits
  rows : ∀ id row, s.rows.get? id = some row → row.IsSound
  files : ∀ id, (s.zone.files.get? id).isSome → (s.rows.get? id).isSome

variable {limits : DropLimits}

theorem Listed.keeps {zone : DropZone} (h : Listed limits s) (hsound : DropZone.Sound zone)
    (hkeeps : DropZone.Keeps s.zone zone) : Listed limits { s with zone } where
  sound := hsound
  limits := hkeeps.limits.trans h.limits
  rows := h.rows
  files id hid := h.files id (hkeeps.files id hid)

theorem Listed.put (h : Listed limits s) (conn : ℕ) (request : PutRequest) (hasRoom created : Bool)
    (random : Fin 16 → UInt8) (now : ℤ) :
    Listed limits (s.put conn request hasRoom created random now) := by
  obtain ⟨hlimits, hfiles⟩ := s.zone.step_put conn request.isValid hasRoom created
  have hfresh : s.zone.files.get? s.zone.ids = none := by
    cases hget : s.zone.files.get? s.zone.ids with
    | none => rfl
    | some f => exact absurd (h.sound.holds.made _ f hget) (lt_irrefl _)
  have hsound := h.sound.step (.act conn (.put request.isValid hasRoom created))
  unfold DropListing.put
  dsimp only
  refine ⟨hsound, hlimits.trans h.limits, fun id row hrow => ?_, fun id hid => ?_⟩
  · dsimp only at hrow
    split at hrow
    next hmade =>
      rw [Dict.get?_insert] at hrow
      split at hrow
      · obtain rfl := Option.some.inj hrow
        have hvalid : request.isValid = true := by
          rcases hfiles _ hmade with hthere | ⟨-, hvalid⟩
          · rw [hfresh] at hthere
            exact absurd hthere nofun
          · exact hvalid
        exact ⟨costs_newDropID random, hvalid, length_int64_le now, .inl rfl⟩
      · exact h.rows id row hrow
    next => exact h.rows id row hrow
  · dsimp only at hid ⊢
    rcases hfiles id hid with hthere | ⟨rfl, -⟩
    · have hrow := h.files id hthere
      split
      · rw [Dict.get?_insert]
        split
        · rfl
        · exact hrow
      · exact hrow
    · rw [if_pos hid, Dict.get?_insert_self]
      rfl

theorem Listed.commit (h : Listed limits s) (conn : ℕ) (sha256 : List Char) :
    Listed limits (s.commit conn sha256) := by
  unfold DropListing.commit
  split
  next hvalid =>
    have hkept := h.keeps (h.sound.step (.act conn .commit)) (s.zone.keeps_step _ nofun)
    dsimp only
    split
    · exact hkept
    next id _ =>
      split
      · exact hkept
      next row hrow =>
        refine ⟨hkept.sound, hkept.limits, fun id' row' hget => ?_, fun id' hid => ?_⟩
        · rw [Dict.get?_insert] at hget
          split at hget
          · obtain rfl := Option.some.inj hget
            have hsound := h.rows id row hrow
            exact ⟨hsound.id, hsound.request, hsound.created, .inr hvalid⟩
          · exact h.rows id' row' hget
        · rw [Dict.get?_insert]
          split
          · rfl
          · exact hkept.files id' hid
  next => exact h.keeps (h.sound.step _) (s.zone.keeps_step _ nofun)

theorem Listed.step (h : Listed limits s) (e : Event) : Listed limits (s.step e) := by
  cases e with
  | put conn request hasRoom created random now =>
    exact h.put conn request hasRoom created random now
  | commit conn sha256 => exact h.commit conn sha256
  | zone e =>
    unfold DropListing.step
    split
    case h_5 hput hcommit heq =>
      obtain rfl := Event.zone.inj heq
      refine h.keeps (h.sound.step _) (s.zone.keeps_step _ fun conn v r c he => ?_)
      exact hput conn v r c he
    case h_1 | h_2 =>
      rename_i heq
      exact absurd heq nofun
    all_goals exact h

/-- Every file is listed. -/
theorem Listed.length_unsorted (h : Listed limits s) :
    s.unsorted.length = s.zone.files.keys.length := by
  have hsome : ∀ e ∈ s.zone.files.entries, ((s.rows.get? e.1).map (entry e.2)).isSome := by
    rintro ⟨id, f⟩ he
    rw [Option.isSome_map]
    exact h.files id (Option.isSome_of_eq_some (Dict.mem_entries_iff.mp he))
  rw [unsorted, List.length_filterMap_eq_countP, List.countP_eq_length.mpr hsome, Dict.keys,
    List.length_map]

theorem Listed.length_json_le (h : Listed limits s) {e : DropEntry} (he : e ∈ s.unsorted) :
    e.json.length + 1 ≤ rowRoom := by
  obtain ⟨⟨id, f⟩, -, hrow⟩ := List.mem_filterMap.mp he
  obtain ⟨row, hget, rfl⟩ := Option.map_eq_some_iff.mp hrow
  exact length_json_entry_le (h.rows id row hget) f

theorem length_dropListBody_le {entries : List DropEntry}
    (h : ∀ e ∈ entries, e.json.length + 1 ≤ rowRoom) :
    (dropListBody entries).length ≤ entries.length * rowRoom + 22 := by
  have hjoined := Json.length_joined_le (entries.map DropEntry.json)
  have hsum := List.sum_le_card_nsmul
    ((entries.map DropEntry.json).map fun item => item.length + 1) rowRoom (by
      simpa only [List.mem_map, forall_exists_index, and_imp, forall_apply_eq_imp_iff₂] using h)
  rw [List.length_map, List.length_map, nsmul_eq_mul, Nat.cast_id] at hsum
  have hnames : "ok".toList.length = 2 ∧ "files".toList.length = 5
      ∧ (Json.bool true).length = 4 := by decide
  rw [dropListBody, Json.length_object (List.cons_ne_nil _ _)]
  split
  · simp only [List.map_cons, List.map_nil, List.sum_cons, List.sum_nil, Json.length_member]
    omega
  · simp only [List.map_cons, List.map_nil, List.sum_cons, List.sum_nil, Json.length_member,
      Json.length_array]
    omega

/-- The most files of a relay as it ships. -/
def defaultDropFiles : ℕ := 64

/-- An `ls` is answered, and has every file there is. -/
structure ListFits (s : DropListing) : Prop where
  length : s.entries.length = s.zone.files.keys.length
  body_le : (dropListBody s.entries).length ≤ maxFrame
  answered : ∃ header, header.length = 4 ∧ s.list = some (header ++ dropListBody s.entries)

/-- **Every `ls` fits a frame**, in every state that sessions, the sweeper and `close` reach:
sixty-four rows at their longest are under the largest one. -/
theorem run_listFits (limits : DropLimits) (events : List Event) :
    ListFits (Run.after step
      { zone := { limits := { limits with dropFiles := defaultDropFiles } } } events) := by
  set s := Run.after step _ events
  have hstart : Listed { limits with dropFiles := defaultDropFiles }
      { zone := { limits := { limits with dropFiles := defaultDropFiles } } } :=
    ⟨.init _, rfl, nofun, nofun⟩
  have h : Listed { limits with dropFiles := defaultDropFiles } s :=
    Run.invariant (I := Listed _) (fun _ e h => h.step e) events hstart
  have hsorted : s.entries.Perm s.unsorted := List.mergeSort_perm _ _
  have hlength : s.entries.length = s.zone.files.keys.length :=
    hsorted.length_eq.trans h.length_unsorted
  have hfiles : s.entries.length ≤ defaultDropFiles := by
    have hle := h.sound.quota.files_le
    rw [h.limits] at hle
    exact hlength.trans_le hle
  have hbody := length_dropListBody_le fun e he => h.length_json_le (hsorted.mem_iff.mp he)
  have hfits : (dropListBody s.entries).length ≤ maxFrame := by
    rw [maxFrame]
    rw [defaultDropFiles] at hfiles
    rw [rowRoom] at hbody
    omega
  refine ⟨hlength, hfits, (List.range 4).map fun k =>
    UInt8.ofNat ((dropListBody s.entries).length / 256 ^ (3 - k)), ?_, ?_⟩
  · rw [List.length_map, List.length_range]
  · rw [list, encodeFrame, if_neg (not_lt.mpr hfits)]

end DropListing
