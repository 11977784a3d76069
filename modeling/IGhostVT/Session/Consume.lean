import IGhostVT.Lib.LittleEndian
import IGhostVT.Session.StreamTracker
import Mathlib.Data.List.TakeWhile
import Mathlib.Tactic.Ring

/-!
# Session/Consume — the fast path and the chunking change nothing

`consume` runs plain bytes straight through where they change nothing but `recent`; `consume_eq_run`
says that it still steps every byte, so a stream may be cut into `consume` calls anywhere
(`consume_append`).
-/

namespace TerminalStreamTracker

variable (t : TerminalStreamTracker)

@[simp] theorem run_nil (o : ℤ) : t.run [] o = t := rfl

@[simp] theorem run_cons (b : UInt8) (bs : List UInt8) (o : ℤ) :
    t.run (b :: bs) o = (t.step b o).run bs (o + 1) := rfl

theorem run_append (as bs : List UInt8) (o : ℤ) :
    t.run (as ++ bs) o = (t.run as o).run bs (o + as.length) := by
  induction as generalizing t o with
  | nil => simp
  | cons a as ih =>
    rw [List.cons_append, run_cons, run_cons, ih, List.length_cons]
    congr 1
    push_cast
    ring

/-! ## Plain bytes -/

theorem ne_can_of_isPlain {b : UInt8} (h : isPlain b = true) : b ≠ 0x18 := by
  rintro rfl
  exact absurd h (by decide)

/-- A plain byte where the parser rests in ground changes only `recent`. -/
theorem step_of_isPlain (hz : t.zmodem = .idle) (hg : t.state = .ground)
    (hu : t.utf8Remaining = 0) (hr : t.recent.head? ≠ some 0x18) {b : UInt8}
    (hb : isPlain b = true) (o : ℤ) :
    t.step b o = { t with recent := pushRecent t.recent b } := by
  have hheader : (pushRecent t.recent b).take 4 ≠ zmodemHeader := by
    intro h
    rw [pushRecent, zmodemHeader] at h
    cases hrec : t.recent with
    | nil => simp [hrec] at h
    | cons r rs =>
      simp only [hrec, List.take_succ_cons, List.cons.injEq] at h
      exact hr (by simp [hrec, h.2.1])
  rw [step]
  simp only [hz, ne_eq, not_true_eq_false, if_false, hheader, hg, if_true]
  rw [ground, if_neg (by simp [hu]), groundByte]
  simp only [isPlain, Bool.or_eq_true, Bool.and_eq_true, decide_eq_true_eq, bne_iff_ne] at hb
  rcases hb with ⟨hlo, hhi⟩ | ⟨⟨⟨⟨⟨hlo, h5⟩, hE⟩, hF⟩, hcan⟩, hesc⟩
  all_goals
    unfold execute
    grind

/-- A run of plain bytes is read by pushing them all. -/
theorem run_of_isPlain (hz : t.zmodem = .idle) (hg : t.state = .ground) (hu : t.utf8Remaining = 0) :
    ∀ (bs : List UInt8), (∀ b ∈ bs, isPlain b = true) → ∀ (r : List UInt8),
      r.head? ≠ some 0x18 → ∀ o : ℤ,
      ({ t with recent := r } : TerminalStreamTracker).run bs o
        = { t with recent := bs.foldl pushRecent r } := by
  intro bs
  induction bs with
  | nil => intros; rfl
  | cons b bs ih =>
    intro hbs r hr o
    have hb : isPlain b = true := hbs b List.mem_cons_self
    rw [run_cons, step_of_isPlain { t with recent := r } hz hg hu hr hb]
    exact ih (fun c hc => hbs c (List.mem_cons_of_mem _ hc)) (pushRecent r b)
      (by simpa [pushRecent] using ne_can_of_isPlain hb) (o + 1)

/-! ## The last eight bytes -/

theorem foldl_pushRecent (bs r : List UInt8) (hr : r.length ≤ 8) :
    bs.foldl pushRecent r = (bs.reverse ++ r).take 8 := by
  induction bs generalizing r with
  | nil => simp [List.take_of_length_le hr]
  | cons b bs ih =>
    rw [List.foldl_cons, ih _ (by simp [pushRecent]), pushRecent, List.reverse_cons,
      List.append_assoc, List.singleton_append, List.take_append, List.take_append]
    congr 1
    rcases Nat.eq_zero_or_pos (8 - bs.reverse.length) with h | h
    · rw [h]; rfl
    · obtain ⟨n, hn⟩ : ∃ n, 8 - bs.reverse.length = n + 1 := ⟨_, (Nat.succ_pred_eq_of_pos h).symm⟩
      rw [hn, List.take_succ_cons, List.take_succ_cons, List.take_take]
      congr 2
      omega

/-- Only the last eight bytes of a run are remembered. -/
theorem foldl_pushRecent_drop (bs r : List UInt8) :
    (bs.drop (bs.length - 8)).foldl pushRecent r = bs.foldl pushRecent r := by
  rcases Nat.le_total bs.length 8 with h | h
  · rw [Nat.sub_eq_zero_of_le h, List.drop_zero]
  · have hpush : ∀ cs : List UInt8, cs ≠ [] → ∀ r : List UInt8,
        cs.foldl pushRecent r = cs.foldl pushRecent (r.take 7) := by
      intro cs hcs r
      cases cs with
      | nil => exact absurd rfl hcs
      | cons c cs => simp [pushRecent, List.take_take]
    have hne : bs ≠ [] := by rintro rfl; simp at h
    have hne' : bs.drop (bs.length - 8) ≠ [] := by simp; omega
    have hlen : (r.take 7).length ≤ 8 := by simp
    rw [hpush _ hne, hpush _ hne', foldl_pushRecent _ _ hlen, foldl_pushRecent _ _ hlen,
      List.reverse_drop, List.take_append_of_le_length (by simp; omega),
      List.take_append_of_le_length (by simpa using h), List.take_take]
    congr 1
    omega

/-! ## The loop -/

theorem fastPath_append (bs : List UInt8) (o : ℤ) :
    (t.fastPath bs).1.run (t.fastPath bs).2 (o + (bs.length - (t.fastPath bs).2.length : ℕ))
      = t.run bs o := by
  rw [fastPath]
  split_ifs with h
  · obtain ⟨hz, hg, hu, hr⟩ := h
    dsimp only
    set plain := bs.takeWhile isPlain with hplain
    have hprefix : plain = bs.take plain.length :=
      List.prefix_iff_eq_take.mp (List.takeWhile_prefix _)
    have hsplit : plain ++ bs.drop plain.length = bs := by
      conv_rhs => rw [← List.take_append_drop plain.length bs, ← hprefix]
    have hrun : t.run plain o = { t with recent := plain.foldl pushRecent t.recent } :=
      run_of_isPlain t hz hg hu plain (fun b hb => List.mem_takeWhile_imp hb) t.recent hr o
    conv_rhs => rw [← hsplit, run_append, hrun]
    rw [foldl_pushRecent_drop, List.length_drop]
    congr 2
    have : plain.length ≤ bs.length := by
      rw [← hsplit, List.length_append]
      omega
    omega
  · simp

theorem length_fastPath_le (bs : List UInt8) : (t.fastPath bs).2.length ≤ bs.length := by
  rw [fastPath]
  split_ifs <;> simp

theorem consumeLoop_eq_run : ∀ (fuel : ℕ) (t : TerminalStreamTracker) (bs : List UInt8) (o : ℤ),
    bs.length ≤ fuel → consumeLoop fuel t bs o = t.run bs o := by
  intro fuel
  induction fuel with
  | zero =>
    intro t bs o h
    rw [List.length_eq_zero_iff.mp (Nat.le_zero.mp h)]
    rfl
  | succ fuel ih =>
    intro t bs o h
    have hlen := t.length_fastPath_le bs
    rw [← t.fastPath_append bs o, consumeLoop]
    cases hrest : (t.fastPath bs).2 with
    | nil => simp [hrest]
    | cons b rest =>
      rw [hrest, List.length_cons] at hlen
      simp only [hrest]
      rw [ih _ _ _ (by omega), run_cons, List.length_cons, Nat.sub_sub]

/-- **The fast path is exact**: `consume` steps every byte. -/
theorem consume_eq_run (bs : List UInt8) (o : ℤ) : t.consume bs o = t.run bs o :=
  consumeLoop_eq_run bs.length t bs o le_rfl

/-- **A stream may be cut into `consume` calls anywhere.** -/
theorem consume_append (as bs : List UInt8) (o : ℤ) :
    t.consume (as ++ bs) o = (t.consume as o).consume bs (o + as.length) := by
  simp only [consume_eq_run, run_append]

/-- **Neither the fast path nor a cut changes anything**: the whole tracker is as if every byte had
been stepped by itself. -/
theorem consume_cut (as bs : List UInt8) (o : ℤ) :
    t.consume (as ++ bs) o = (t.consume as o).consume bs (o + as.length) ∧
      t.consume (as ++ bs) o = t.run (as ++ bs) o :=
  ⟨t.consume_append as bs o, t.consume_eq_run (as ++ bs) o⟩

end TerminalStreamTracker

/-! ## The word of the last eight bytes

The last eight bytes are a 64-bit word, the newest in its low byte: what is pushed, and what is
asked of it, is what a list of them holds. -/

namespace TerminalStreamTracker

/-- The word `recent` is kept in. -/
def recentWord (recent : List UInt8) : UInt64 := UInt64.ofNat (leValue recent)

variable {recent : List UInt8}

theorem length_pushRecent (h : recent.length = 8) (b : UInt8) :
    (pushRecent recent b).length = 8 := by
  rw [pushRecent, List.length_cons, List.length_take, h]
  rfl

theorem toNat_recentWord (h : recent.length = 8) : (recentWord recent).toNat = leValue recent := by
  have hlt := leValue_lt recent
  rw [h] at hlt
  exact UInt64.toNat_ofNat_of_lt' hlt

/-- What `recent = (recent << 8) | UInt64(byte)` leaves. -/
theorem recentWord_pushRecent (h : recent.length = 8) (b : UInt8) :
    recentWord (pushRecent recent b) = (recentWord recent <<< 8) ||| b.toUInt64 := by
  apply UInt64.toNat_inj.mp
  have hvalue : leValue (pushRecent recent b) = leValue recent % 256 ^ 7 * 256 + b.toNat := by
    rw [pushRecent, leValue, leValue_take]
    omega
  have hshift : (recentWord recent <<< 8).toNat = (leValue recent % 256 ^ 7) <<< 8 := by
    rw [UInt64.toNat_shiftLeft, toNat_recentWord h, Nat.shiftLeft_eq, Nat.shiftLeft_eq]
    change leValue recent * 256 % 2 ^ 64 = _
    omega
  rw [UInt64.toNat_or, hshift, toNat_recentWord (length_pushRecent h b), hvalue,
    UInt8.toNat_toUInt64, ← Nat.shiftLeft_add_eq_or_of_lt b.toNat_lt, Nat.shiftLeft_eq]

/-- What `recent & 0xFFFF_FFFF == 0x2A2A_1842` asks. -/
theorem recentWord_header (h : recent.length = 8) :
    recentWord recent &&& 0xFFFFFFFF = 0x2A2A1842 ↔ recent.take 4 = zmodemHeader := by
  have hlow : (recentWord recent &&& 0xFFFFFFFF).toNat = leValue (recent.take 4) := by
    rw [UInt64.toNat_and, toNat_recentWord h, leValue_take]
    exact Nat.and_two_pow_sub_one_eq_mod _ 32
  have hheader : (0x2A2A1842 : UInt64).toNat = leValue zmodemHeader := by decide
  rw [← UInt64.toNat_inj, hlow, hheader, leValue_inj (by rw [List.length_take, h]; rfl)]

end TerminalStreamTracker
