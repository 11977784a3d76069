import Mathlib.Data.List.Basic
import Mathlib.Order.Nat
import Mathlib.Tactic.SplitIfs

/-!
# Relay/DropStream — a file as its uploader sends it and its downloader reads it

`DropEncoder` hands the compressed stream on in chunks of one size, and an upload that is resumed
skips what the relay holds: whatever the compressor's own pieces and wherever the upload was cut,
what is sent is the rest of the stream (`flatten_resumed`).
-/

namespace Drop

def maximumChunkByteCount : ℕ := 1 <<< 20

/-- A chunk is not empty. -/
theorem maximumChunkByteCount_pos : 0 < maximumChunkByteCount := by decide

/-! ## DropEncoder -/

/-- The inner loop of `run`: full chunks, and what is left pending. -/
def full (size : ℕ) : ℕ → List UInt8 → List (List UInt8) × List UInt8
  | 0, pending => ([], pending)
  | fuel + 1, pending =>
    if size ≤ pending.length then
      let (chunks, rest) := full size fuel (pending.drop size)
      (pending.take size :: chunks, rest)
    else ([], pending)

/-- `run` on what the compressor hands out, a piece at a time. -/
def chunksFrom (size : ℕ) (pending : List UInt8) : List (List UInt8) → List (List UInt8)
  | [] => if pending = [] then [] else [pending]
  | output :: outputs =>
    let (chunks, rest) := full size (pending ++ output).length (pending ++ output)
    chunks ++ chunksFrom size rest outputs

def chunks (outputs : List (List UInt8)) : List (List UInt8) :=
  chunksFrom maximumChunkByteCount [] outputs

/-- A chunk the relay takes for one: an empty one would end the stream. -/
def IsChunk (size : ℕ) (chunk : List UInt8) : Prop := chunk ≠ [] ∧ chunk.length ≤ size

variable {size : ℕ}

/-- Full chunks are cut off the front, and less than one is left. -/
theorem full_spec (hsize : 0 < size) : ∀ (fuel : ℕ) (pending : List UInt8), pending.length ≤ fuel →
    (full size fuel pending).1.flatten ++ (full size fuel pending).2 = pending ∧
      (∀ chunk ∈ (full size fuel pending).1, IsChunk size chunk) ∧
      (full size fuel pending).2.length < size := by
  intro fuel
  induction fuel with
  | zero =>
    intro pending hfuel
    have hnil : pending = [] := List.length_eq_zero_iff.mp (Nat.le_zero.mp hfuel)
    subst hnil
    exact ⟨rfl, fun _ h => (by cases h), hsize⟩
  | succ fuel ih =>
    intro pending hfuel
    rw [full]
    split_ifs with hlong
    · have hrest : (pending.drop size).length ≤ fuel := by
        rw [List.length_drop]
        omega
      obtain ⟨hflatten, hchunks, hleft⟩ := ih (pending.drop size) hrest
      refine ⟨?_, ?_, hleft⟩
      · dsimp only
        rw [List.flatten_cons, List.append_assoc, hflatten, List.take_append_drop]
      · intro chunk hmem
        rcases List.mem_cons.mp hmem with rfl | hmem
        · have hlength : (pending.take size).length = size := by
            rw [List.length_take]
            omega
          refine ⟨fun hnil => ?_, hlength.le⟩
          rw [hnil] at hlength
          exact hsize.ne hlength
        · exact hchunks chunk hmem
    · exact ⟨rfl, fun _ h => (by cases h), Nat.lt_of_not_le hlong⟩

/-- Nothing is lost between an encoder's outputs. -/
theorem chunksFrom_spec (hsize : 0 < size) : ∀ (outputs : List (List UInt8)) (pending : List UInt8),
    pending.length < size →
      (chunksFrom size pending outputs).flatten = pending ++ outputs.flatten ∧
        ∀ chunk ∈ chunksFrom size pending outputs, IsChunk size chunk
  | [], pending, hshort => by
    rw [chunksFrom]
    split_ifs with hnil
    · subst hnil
      exact ⟨rfl, fun _ h => by cases h⟩
    · refine ⟨by simp, fun chunk hmem => ?_⟩
      rw [List.mem_singleton.mp hmem]
      exact ⟨hnil, hshort.le⟩
  | output :: outputs, pending, _ => by
    obtain ⟨hflatten, hchunks, hleft⟩ := full_spec hsize _ (pending ++ output) le_rfl
    obtain ⟨hrest, hothers⟩ := chunksFrom_spec hsize outputs _ hleft
    rw [chunksFrom]
    dsimp only
    refine ⟨?_, fun chunk hmem => ?_⟩
    · rw [List.flatten_append, hrest, ← List.append_assoc, hflatten, List.flatten_cons,
        List.append_assoc]
    · rcases List.mem_append.mp hmem with hmem | hmem
      exacts [hchunks chunk hmem, hothers chunk hmem]

/-- The chunks are the stream, however the compressor cut it. -/
theorem flatten_chunks (outputs : List (List UInt8)) : (chunks outputs).flatten = outputs.flatten :=
  (chunksFrom_spec (maximumChunkByteCount_pos) outputs [] (maximumChunkByteCount_pos)).1

/-- Every chunk is full but the last. -/
theorem isChunk_chunks (outputs : List (List UInt8)) :
    ∀ chunk ∈ chunks outputs, IsChunk maximumChunkByteCount chunk :=
  (chunksFrom_spec (maximumChunkByteCount_pos) outputs [] (maximumChunkByteCount_pos)).2

/-! ## upload -/

/-- `upload`'s loop over the encoder's chunks, `offset` of the stream being at the relay. -/
def resumed (offset : ℕ) : ℕ → List (List UInt8) → List (List UInt8)
  | _, [] => []
  | start, data :: rest =>
    let position := start + data.length
    if position > offset then data.drop (offset - start) :: resumed offset position rest
    else resumed offset position rest

/-- **A resumed upload sends the rest of the stream.** -/
theorem flatten_resumed (offset : ℕ) : ∀ (start : ℕ) (cs : List (List UInt8)),
    (resumed offset start cs).flatten = cs.flatten.drop (offset - start)
  | _, [] => by rw [resumed, List.flatten_nil, List.drop_nil]
  | start, data :: rest => by
    have ih := flatten_resumed offset (start + data.length) rest
    rw [resumed, List.flatten_cons, List.drop_append]
    split_ifs with hpast
    · have hnone : offset - (start + data.length) = 0 := by omega
      have hnone' : offset - start - data.length = 0 := by omega
      rw [List.flatten_cons, ih, hnone, hnone']
    · have hskipped : data.drop (offset - start) = [] := List.drop_of_length_le (by omega)
      rw [ih, hskipped, List.nil_append, Nat.sub_sub]

/-- And so from an offset on. -/
theorem isChunk_resumed (offset : ℕ) : ∀ (start : ℕ) (cs : List (List UInt8)),
    (∀ chunk ∈ cs, IsChunk size chunk) → ∀ chunk ∈ resumed offset start cs, IsChunk size chunk
  | _, [], _ => fun _ h => by cases h
  | start, data :: rest, h => by
    have hrest := isChunk_resumed offset (start + data.length) rest
      fun chunk hmem => h chunk (List.mem_cons_of_mem _ hmem)
    rw [resumed]
    split_ifs with hpast
    · intro chunk hmem
      rcases List.mem_cons.mp hmem with rfl | hmem
      · refine ⟨fun hnil => ?_, ?_⟩
        · have hsome : 0 < data.length := List.length_pos_iff.mpr (h data List.mem_cons_self).1
          rw [List.drop_eq_nil_iff] at hnil
          omega
        · rw [List.length_drop]
          exact (Nat.sub_le _ _).trans (h data List.mem_cons_self).2
      · exact hrest chunk hmem
    · exact hrest

/-! ## DropDecoder -/

inductive Encoding
  | zstd
  | plain
deriving DecidableEq

/-- What the relay lists of a file. -/
structure Entry where
  size : ℕ
  encoding : Encoding
  sha256 : List UInt8

/-- The compressor, the decompressor (which fails on damage and on a stream that ends early), and
the hash. -/
structure Codec where
  /-- The pieces `ZSTD_compressStream2` hands out. -/
  compress : List UInt8 → List (List UInt8)
  decompress : List UInt8 → Option (List UInt8)
  sha256 : List UInt8 → List UInt8

/-- The file, or nothing when the bytes are not those of the entry. -/
def Codec.decode (c : Codec) (entry : Entry) (bytes : List UInt8) : Option (List UInt8) :=
  match entry.encoding with
  | .zstd =>
    (c.decompress bytes).filter fun out => out.length = entry.size ∧ c.sha256 out = entry.sha256
  | .plain => (some bytes).filter fun out => out.length = entry.size ∧ c.sha256 out = entry.sha256

/-- The pieces of a file's stream. -/
def Codec.pieces (c : Codec) (encoding : Encoding) (file : List UInt8) : List (List UInt8) :=
  match encoding with
  | .zstd => c.compress file
  | .plain => [file]

/-- What the relay stores of a file. -/
def Codec.stream (c : Codec) (encoding : Encoding) (file : List UInt8) : List UInt8 :=
  (c.pieces encoding file).flatten

/-- The entry of a file that was uploaded whole. -/
def Codec.entry (c : Codec) (encoding : Encoding) (file : List UInt8) : Entry where
  size := file.length
  encoding
  sha256 := c.sha256 file

/-- What is compressed is decompressed. -/
def Codec.Restores (c : Codec) : Prop := ∀ file, c.decompress (c.compress file).flatten = some file

/-- A stream decodes to its file. -/
theorem Codec.decode_stream {c : Codec} (h : c.Restores) (encoding : Encoding) (file : List UInt8) :
    c.decode (c.entry encoding file) (c.stream encoding file) = some file := by
  cases encoding with
  | zstd =>
    change ((c.decompress (c.compress file).flatten).filter _) = _
    rw [h file, Option.filter_some, if_pos (by simp [Codec.entry])]
  | plain =>
    have hstream : c.stream .plain file = file := List.append_nil file
    rw [hstream, Codec.decode, Option.filter_some, if_pos (by simp [Codec.entry])]
    rfl

/-- What is decoded is of the entry. -/
theorem Codec.of_decode {c : Codec} {entry : Entry} {bytes out : List UInt8}
    (h : c.decode entry bytes = some out) :
    out.length = entry.size ∧ c.sha256 out = entry.sha256 := by
  unfold Codec.decode at h
  split at h <;> exact of_decide_eq_true (Option.filter_eq_some_iff.mp h).2

end Drop
