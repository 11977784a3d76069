import IGhostVT.Zmodem.ZmodemReading
import IGhostVT.Zmodem.ZmodemTransfer

/-!
# Zmodem/Loopback — a sender and a receiver on one line

`ZmodemSender` talks to `ZmodemReceiver` over two byte streams, each through a `ZmodemParser`.  The
bytes of either stream may be delivered in any portions and the two streams in any order.

A file goes out in blocks of `blockSize`, the last of which asks for an answer to stop at; an empty
file has one empty block.  `pump_spec` says which blocks one run of the window's loop sends.
-/

namespace Loopback

/-! ## The program -/

/-- A file in memory. -/
structure File where
  name : List UInt8
  data : List UInt8

/-- The file as its source hands it out. -/
def File.outgoing (f : File) : ZmodemOutgoingFile where
  name := f.name
  size := f.data.length
  read offset maxLength := (f.data.drop offset).take maxLength

def isFault : ZParserEvent → Bool
  | .badCRC | .abort => true
  | _ => false

/-- The sending end. -/
structure Uploading where
  sender : ZmodemSender
  /-- What the source's `finish` was called with, each time. -/
  ended : List Bool := []
  /-- A bad checksum or an abort has come up. -/
  hasFault : Bool := false

def Uploading.hear (u : Uploading) (event : ZParserEvent) : Uploading × List UInt8 :=
  let change := u.sender.handle event
  ({ sender := change.1, ended := u.ended ++ change.2.filterMap (·.ended)
     hasFault := u.hasFault || isFault event }, change.2.flatMap (·.sent))

/-- The receiving end.  The writer accepts every file. -/
structure Downloading where
  receiver : ZmodemReceiver := {}
  /-- What the writer was asked to do, in order. -/
  calls : List ZmodemReceiver.Effect := []
  hasFault : Bool := false

def Downloading.hear (d : Downloading) (event : ZParserEvent) : Downloading × List UInt8 :=
  let change := d.receiver.handle event true
  ({ receiver := change.1, calls := d.calls ++ change.2.filterMap (·.call)
     hasFault := d.hasFault || isFault event }, change.2.flatMap (·.sent))

theorem Uploading.hear_silent (u : Uploading) (e : ZParserEvent)
    (h : ZmodemParser.isSignal e = false) : u.hear e = (u, []) := by
  cases e with
  | noise b =>
    have hhandle : u.sender.handle (.noise b) = (u.sender, []) := by
      unfold ZmodemSender.handle
      split <;> rfl
    unfold Uploading.hear
    rw [hhandle]
    simp [isFault]
  | _ => exact absurd h (by simp [ZmodemParser.isSignal])

theorem Downloading.hear_silent (d : Downloading) (e : ZParserEvent)
    (h : ZmodemParser.isSignal e = false) : d.hear e = (d, []) := by
  cases e with
  | noise b =>
    have hhandle : d.receiver.handle (.noise b) true = (d.receiver, []) := by
      unfold ZmodemReceiver.handle
      split <;> rfl
    unfold Downloading.hear
    rw [hhandle]
    simp [isFault]
  | _ => exact absurd h (by simp [ZmodemParser.isSignal])

/-- The sender on the left, the receiver on the right. -/
def rules : Talk.Rules ZmodemParser UInt8 ZParserEvent Uploading Downloading where
  consume := ZmodemParser.consume
  isSignal := ZmodemParser.isSignal
  actLeft := Uploading.hear
  actRight := Downloading.hear
  silentLeft := Uploading.hear_silent
  silentRight := Downloading.hear_silent

/-- Both ends have begun. -/
def start (files : List File) : Duplex ZmodemParser UInt8 Uploading Downloading :=
  let sender := ({ source := files.map File.outgoing } : ZmodemSender).begin
  let receiver := ({} : ZmodemReceiver).begin
  { left := { sender := sender.1, ended := sender.2.filterMap (·.ended) }
    toRight := sender.2.flatMap (·.sent)
    rightParser := {}
    right := { receiver := receiver.1, calls := receiver.2.filterMap (·.call) }
    toLeft := receiver.2.flatMap (·.sent)
    leftParser := {} }

/-- One delivery: some bytes of one of the streams. -/
abbrev deliver := Duplex.deliver rules

/-! ## Blocks -/

namespace File

variable (f : File)

/-- An empty file has a block, too. -/
def blockCount : ℕ := (f.data.length - 1) / ZmodemSender.blockSize + 1

/-- Where block `k` starts. -/
def bound (k : ℕ) : ℕ := min (ZmodemSender.blockSize * k) f.data.length

def block (k : ℕ) : List UInt8 :=
  (f.data.drop (ZmodemSender.blockSize * k)).take ZmodemSender.blockSize

def blocks : List (List UInt8) := (List.range f.blockCount).map f.block

/-- The last block asks the sender to wait. -/
def lastOf (k : ℕ) : ZSubpacketEnd := if k + 1 = f.blockCount then .wait else .query

variable {f} {k : ℕ}

theorem blockCount_pos : 0 < f.blockCount := Nat.succ_pos _

@[simp] theorem bound_zero : f.bound 0 = 0 := by
  rw [bound, Nat.mul_zero, Nat.zero_min]

theorem bound_le (k : ℕ) : f.bound k ≤ f.data.length := min_le_right _ _

theorem bound_mono {j k : ℕ} (h : j ≤ k) : f.bound j ≤ f.bound k :=
  min_le_min_right _ (Nat.mul_le_mul_left _ h)

theorem mul_le_length (h : k < f.blockCount) : ZmodemSender.blockSize * k ≤ f.data.length := by
  unfold blockCount ZmodemSender.blockSize at *
  omega

theorem bound_of_lt (h : k < f.blockCount) : f.bound k = ZmodemSender.blockSize * k :=
  min_eq_left (mul_le_length h)

/-- A block that is not the last ends inside the file. -/
theorem bound_succ_lt_iff (h : k < f.blockCount) :
    f.bound (k + 1) < f.data.length ↔ k + 1 < f.blockCount := by
  unfold bound blockCount ZmodemSender.blockSize at *
  omega

theorem bound_blockCount : f.bound f.blockCount = f.data.length := by
  unfold bound blockCount ZmodemSender.blockSize
  omega

theorem bound_succ (h : k < f.blockCount) : f.bound (k + 1) = f.bound k + (f.block k).length := by
  have hle := mul_le_length h
  rw [bound_of_lt h, bound, block, List.length_take, List.length_drop]
  rw [Nat.mul_add, Nat.mul_one]
  omega

@[simp] theorem outgoing_size (f : File) : f.outgoing.size = f.data.length := rfl

theorem read_bound (h : k < f.blockCount) :
    f.outgoing.read (f.bound k) ZmodemSender.blockSize = f.block k := by
  rw [bound_of_lt h]
  rfl

/-- **The blocks are the file.** -/
theorem flatten_blocks (f : File) : f.blocks.flatten = f.data := by
  have htake : ∀ k ≤ f.blockCount,
      ((List.range k).map f.block).flatten = f.data.take (f.bound k) := by
    intro k
    induction k with
    | zero => exact fun _ => (List.take_zero).symm.trans (by rw [bound_zero])
    | succ k ih =>
      intro hk
      have hblock :
          f.block k = (f.data.drop (ZmodemSender.blockSize * k)).take (f.block k).length :=
        List.prefix_iff_eq_take.mp (List.take_prefix _ _)
      rw [List.range_succ, List.map_append, List.flatten_append, ih (Nat.le_of_lt hk),
        bound_succ hk, List.take_add, bound_of_lt hk, ← hblock, List.map_singleton,
        List.flatten_singleton]
  rw [blocks, htake _ le_rfl, bound_blockCount, List.take_length]

end File

/-! ## What the receiver reads -/

open File

variable {f : File}

/-- **A file's info is read back.** -/
theorem parseFileInfo_fileInfo (hname : 0 ∉ f.name) (hsize : f.data.length < 2 ^ 32) :
    ZmodemReceiver.parseFileInfo (ZmodemSender.fileInfo f.outgoing)
      = (f.name, some f.data.length) := by
  let digits := decimal f.data.length
  let words := digits ++ (ascii " 0 0 0 1 " ++ digits)
  have hdigits : ∀ b ∈ digits, b ≠ 0 ∧ b ≠ 0x20 := by
    intro b hb
    have hdigit := isDigit_of_mem_decimal hb
    constructor <;> rintro rfl <;> exact absurd hdigit (by decide)
  have hwords : ∀ b ∈ words, b ≠ 0 := by
    intro b hb
    simp only [words, List.mem_append] at hb
    obtain hb | hb | hb := hb
    · exact (hdigits b hb).1
    · exact (by decide +kernel : ∀ b ∈ ascii " 0 0 0 1 ", b ≠ 0) b hb
    · exact (hdigits b hb).1
  have hsplit : ZmodemSender.fileInfo f.outgoing = f.name ++ 0 :: (words ++ [0]) := by
    simp only [ZmodemSender.fileInfo, outgoing_size, words, digits, List.append_assoc,
      List.cons_append, List.nil_append]
    rfl
  have hnamed : ∀ b ∈ f.name, (decide (b ≠ 0)) = true := fun b hb =>
    decide_eq_true fun h => hname (h ▸ hb)
  have htake : (f.name ++ 0 :: (words ++ [0])).takeWhile (· ≠ 0) = f.name := by
    rw [List.takeWhile_append_of_pos hnamed, List.takeWhile_cons_of_neg (by decide),
      List.append_nil]
  have hdrop : (f.name ++ 0 :: (words ++ [0])).dropWhile (· ≠ 0) = 0 :: (words ++ [0]) := by
    rw [List.dropWhile_append_of_pos hnamed, List.dropWhile_cons_of_neg (by decide)]
  have hinfo : (words ++ [0]).takeWhile (· ≠ 0) = words := by
    rw [List.takeWhile_append_of_pos fun b hb => decide_eq_true (hwords b hb),
      List.takeWhile_cons_of_neg (by decide), List.append_nil]
  have hword : (words.dropWhile (· = 0x20)).takeWhile (· ≠ 0x20) = digits := by
    obtain ⟨c, cs, hcs⟩ := List.exists_cons_of_ne_nil (decimal_ne_nil f.data.length)
    have hfirst : words.dropWhile (· = 0x20) = words := by
      simp only [words, digits, hcs, List.cons_append]
      rw [List.dropWhile_cons_of_neg]
      simpa using (hdigits c (by simp only [digits, hcs]; exact List.mem_cons_self)).2
    rw [hfirst, List.takeWhile_append_of_pos fun b hb => decide_eq_true (hdigits b hb).2]
    exact List.append_nil digits
  unfold ZmodemReceiver.parseFileInfo
  rw [hsplit, if_pos (by simp), htake, hdrop, List.drop_one, List.tail_cons]
  dsimp only
  rw [hinfo, hword, parseInteger_decimal (by omega) (by omega)]
  rfl

/-- Where the receiver's parser is with `k` blocks read. -/
def placeAfter (f : File) (k : ℕ) : ZmodemParser.Place :=
  if k = f.blockCount then .rest else .frame

/-- A block as the receiver hears it. -/
def blockEvent (f : File) (k : ℕ) : ZParserEvent := .data (f.block k) (f.lastOf k)

/-! ## The window -/

/-- What goes out for `count` blocks from block `k` on. -/
def blockSends (f : File) (k count : ℕ) : List ZmodemSender.Effect :=
  (List.range' k count).map fun j =>
    .send (ZmodemEncoder.dataSubpacket32 (f.block j) (f.lastOf j))

@[simp] theorem blockSends_ended (f : File) (k count : ℕ) :
    (blockSends f k count).filterMap (·.ended) = [] := by
  rw [List.filterMap_eq_nil_iff]
  intro e he
  obtain ⟨j, -, rfl⟩ := List.mem_map.mp he
  rfl

/-- **One run of the window's loop**, from block `k` on: it sends blocks until the last is out or
the window is full. -/
theorem pump_spec : ∀ (passes : ℕ) {s : ZmodemSender} {k : ℕ}, k ≤ f.blockCount →
    s.offset = f.bound k → s.sentLastBlock = decide (k = f.blockCount) →
    s.ackedOffset ≤ s.offset →
    (k = f.blockCount ∨ ZmodemSender.window ≤ passes + (s.offset - s.ackedOffset)) →
      ∃ count, k + count ≤ f.blockCount
        ∧ (k + count = f.blockCount ∨ ZmodemSender.window ≤ f.bound (k + count) - s.ackedOffset)
        ∧ ZmodemSender.pump f.outgoing passes s =
          ({ s with
              offset := f.bound (k + count), sentLastBlock := decide (k + count = f.blockCount) },
            blockSends f k count)
  | 0, s, k, hk, hoffset, hlast, _, hwindow => by
      refine ⟨0, hk, hwindow.imp_right fun h => by rw [Nat.add_zero, ← hoffset]; omega, ?_⟩
      rw [Nat.add_zero, ← hoffset, ← hlast]
      rfl
  | passes + 1, s, k, hk, hoffset, hlast, hacked, hwindow => by
      unfold ZmodemSender.pump
      split
      case isFalse hstop =>
        refine ⟨0, hk, ?_, ?_⟩
        · by_cases heq : k = f.blockCount
          · exact .inl heq
          · have hmore : s.sentLastBlock = false := by rw [hlast, decide_eq_false heq]
            exact .inr (by rw [Nat.add_zero, ← hoffset]; exact not_lt.mp fun h => hstop ⟨hmore, h⟩)
        · rw [Nat.add_zero, ← hoffset, ← hlast]
          rfl
      case isTrue hgo =>
        have hlt : k < f.blockCount := by
          refine lt_of_le_of_ne hk fun heq => ?_
          rw [hlast, decide_eq_true heq] at hgo
          exact absurd hgo.1 (by decide)
        have hbound : s.offset + (f.block k).length = f.bound (k + 1) := by
          rw [hoffset, bound_succ hlt]
        have hisLast :
            decide (f.bound (k + 1) ≥ f.data.length) = decide (k + 1 = f.blockCount) := by
          have := bound_succ_lt_iff hlt
          exact decide_eq_decide.mpr (by omega)
        have hsome : ¬ (f.block k = [] ∧ s.offset < f.data.length) := by
          rintro ⟨hnil, hless⟩
          rw [hnil, List.length_nil, Nat.add_zero, hoffset] at hbound
          have := bound_succ_lt_iff hlt
          unfold bound ZmodemSender.blockSize at *
          omega
        have hnext : k + 1 = f.blockCount
            ∨ ZmodemSender.window ≤ passes + (f.bound (k + 1) - s.ackedOffset) := by
          refine or_iff_not_imp_left.mpr fun hne => ?_
          have := bound_succ_lt_iff hlt
          unfold bound ZmodemSender.blockSize at *
          omega
        obtain ⟨count, hcount, hstop, hpump⟩ := pump_spec passes
          (s :=
            { s with offset := f.bound (k + 1), sentLastBlock := decide (k + 1 = f.blockCount) })
          (Nat.succ_le_of_lt hlt) rfl rfl (hacked.trans (by dsimp only; omega)) hnext
        refine ⟨count + 1, by omega, ?_, ?_⟩
        · rw [show k + (count + 1) = k + 1 + count by omega]
          exact hstop
        · have hread : f.outgoing.read s.offset ZmodemSender.blockSize = f.block k := by
            rw [hoffset, read_bound hlt]
          have hindex : k + (count + 1) = k.succ + count := by omega
          have hsends : blockSends f k (count + 1) =
              .send (ZmodemEncoder.dataSubpacket32 (f.block k) (f.lastOf k))
                :: blockSends f (k + 1) count := rfl
          dsimp only
          rw [hread, outgoing_size, if_neg hsome, hbound, hisLast, hpump, hindex, hsends, lastOf]
          simp only [decide_eq_true_eq]

/-- **Blocks are read as they were cut.** -/
theorem reads_blockSends : ∀ (count : ℕ) {k : ℕ}, k + count ≤ f.blockCount →
    ZmodemParser.Reads (placeAfter f k) ((blockSends f k count).flatMap (·.sent))
      ((List.range' k count).map (blockEvent f)) (placeAfter f (k + count))
  | 0, k, _ => ZmodemParser.reads_nil _
  | count + 1, k, hk => by
      have hplace : placeAfter f k = .frame := if_neg (by omega)
      have hnext : (if (f.lastOf k).continues then .frame else .rest) = placeAfter f (k + 1) := by
        unfold lastOf placeAfter
        split <;> rfl
      have hfirst := ZmodemParser.reads_dataSubpacket32 (f.block k) (f.lastOf k)
      rw [hnext] at hfirst
      have hrest := reads_blockSends count (k := k + 1) (by omega)
      rw [show k + 1 + count = k + (count + 1) by omega] at hrest
      rw [hplace]
      exact hfirst.append hrest

end Loopback
