/-
What the copy loop of the IO benchmark writes.

The loop goes through the source block by block, and begins it again after a block
that was cut short, or after the empty read behind the last whole one.  What it
wrote ends where a block ends, so it stops at the first such end at or past the
transfer size.  It never gets there without anything to write, and it does not see
that it is there when its 32-bit count of the bytes has become negative.

So there are two ways to fail, and the argument goes through the loop three times:
it reaches the block end if the count can hold it, it never stops before, and it
never stops at all if a round writes nothing.  The three together are an
equivalence.
-/
import Mathlib.Algebra.Order.Floor.Div
import WrrScheduler.Bench.IoBound

namespace WrrScheduler

variable {α : Type} {src out : List α} {bSize tSize : BitVec 32} {s r : CopyState α} {k : Nat}

/-- The beginning of a sequence repeated without end. -/
def IsRepetition (src out : List α) : Prop := ∃ k, out <+: (List.replicate k src).flatten

/-- The first end of a block at or past `t` bytes, in copies of a file of `len` bytes. -/
def blockEnd (len b t : Nat) : Nat :=
  let before := (t - 1) / len * len
  before + min ((t - before) ⌈/⌉ b * b) len

/-- The loop ends with as much of the source as was asked for, and less than a block more. -/
def CopiesRequested (src : List α) (args : IoArgs) : Prop :=
  ∃ fuel r, childTask src args.blockSize args.tranSize fuel = some r ∧ IsRepetition src r.dest ∧
    args.tranSize.toNat ≤ r.dest.length ∧
    (0 < args.tranSize.toNat → r.dest.length < args.tranSize.toNat + args.blockSize.toNat)

/-! ### Ends of blocks -/

/-- The end of a block that takes the count to `t` or past it is the first one that does. -/
theorem blockEnd_eq {len b t offset : Nat} (hb : 0 < b) (hblock : b ∣ offset)
    (hoffset : offset ≤ len) (hlt : k * len + offset < t)
    (hle : t ≤ k * len + offset + min b (len - offset)) :
    blockEnd len b t = k * len + offset + min b (len - offset) := by
  obtain ⟨j, rfl⟩ := hblock
  have hdiv : (t - 1) / len = k := by
    rw [Nat.div_eq_iff (by omega)]
    constructor
    · omega
    · omega
  have hceil : (t - k * len) ⌈/⌉ b = j + 1 := by
    rw [Nat.ceilDiv_eq_add_pred_div, Nat.div_eq_iff hb, Nat.add_mul, Nat.mul_comm j b]
    omega
  have hnext : (j + 1) * b = b * j + b := by rw [Nat.add_mul, Nat.mul_comm j b, Nat.one_mul]
  unfold blockEnd
  simp only []
  rw [hdiv, hceil, hnext]
  omega

/-- It is less than a block past `t`. -/
theorem blockEnd_bounds {len b t : Nat} (hlen : 0 < len) (hb : 0 < b) (ht : 0 < t) :
    t ≤ blockEnd len b t ∧ blockEnd len b t < t + b := by
  have hbefore : (t - 1) / len * len ≤ t - 1 := Nat.div_mul_le_self _ _
  have hafter : t - 1 < (t - 1) / len * len + len := Nat.lt_div_mul_add hlen
  have hceil : t - (t - 1) / len * len ≤ (t - (t - 1) / len * len) ⌈/⌉ b * b ∧
      (t - (t - 1) / len * len) ⌈/⌉ b * b < t - (t - 1) / len * len + b := by
    generalize t - (t - 1) / len * len = rest
    rw [Nat.ceilDiv_eq_add_pred_div]
    have hle := Nat.div_mul_le_self (rest + b - 1) b
    have hlt : rest + b - 1 < (rest + b - 1) / b * b + b := Nat.lt_div_mul_add hb
    omega
  unfold blockEnd
  simp only []
  omega

/-! ### One round

At the end of a round the destination is `k` copies and a beginning of the next, up to
the offset.  An empty read changes the offset only, which is why the measure that a
round lowers counts the bytes twice and the empty read once.
-/

/-- Where the loop is at the end of a round: in the copy after `k` whole ones, between two blocks,
with the bytes counted. -/
structure CopyAt (src : List α) (bSize : BitVec 32) (k : Nat) (s : CopyState α) : Prop where
  dest : s.dest = (List.replicate k src).flatten ++ src.take s.offset
  offset : s.offset ≤ src.length
  block : bSize.toNat ∣ s.offset
  total : s.totalBytesWritten = BitVec.ofNat 32 s.dest.length

/-- What a round writes. -/
theorem length_readBlock (offset : Nat) :
    (readBlock src bSize offset).length = min bSize.toNat (src.length - offset) := by
  rw [readBlock, List.length_take, List.length_drop]

/-- A round, with nothing to tell apart: an empty read writes nothing and counts nothing. -/
theorem copyRound_eq : copyRound src bSize s =
    { offset :=
        if BitVec.ofNat 32 (readBlock src bSize s.offset).length ≠ bSize then 0
        else s.offset + (readBlock src bSize s.offset).length
      dest := s.dest ++ readBlock src bSize s.offset
      totalBytesWritten :=
        s.totalBytesWritten + BitVec.ofNat 32 (readBlock src bSize s.offset).length } := by
  unfold copyRound
  simp only []
  generalize readBlock src bSize s.offset = buf
  cases buf with
  | nil => by_cases hcut : (BitVec.ofNat 32 0) ≠ bSize <;> simp [hcut]
  | cons c buf =>
      by_cases hcut : BitVec.ofNat 32 (c :: buf).length ≠ bSize
      · rw [if_pos hcut, if_pos hcut]
        rfl
      · rw [if_neg hcut, if_neg hcut]
        rfl

theorem dest_copyRound :
    (copyRound src bSize s).dest = s.dest ++ readBlock src bSize s.offset := by rw [copyRound_eq]

/-- The bytes stay counted. -/
theorem total_copyRound (h : s.totalBytesWritten = BitVec.ofNat 32 s.dest.length) :
    (copyRound src bSize s).totalBytesWritten =
      BitVec.ofNat 32 (copyRound src bSize s).dest.length := by
  rw [copyRound_eq, h, ← BitVec.ofNat_add, List.length_append]

/-- The source is begun again after a block that is not whole. -/
theorem offset_copyRound (hoffset : s.offset ≤ src.length) : (copyRound src bSize s).offset =
    if src.length < s.offset + bSize.toNat then 0 else s.offset + bSize.toNat := by
  have hlength := @length_readBlock α src bSize s.offset
  have hcut : BitVec.ofNat 32 (readBlock src bSize s.offset).length ≠ bSize ↔
      src.length < s.offset + bSize.toNat := by
    have hword := bSize.isLt
    rw [ne_eq, ← BitVec.toNat_inj, BitVec.toNat_ofNat, Nat.mod_eq_of_lt (by omega)]
    omega
  rw [copyRound_eq]
  refine (if_congr hcut rfl rfl).trans ?_
  split
  · rfl
  · omega

/-- **A round goes on by a block**, in the same copy or to the beginning of the next. -/
theorem CopyAt.round (h : CopyAt src bSize k s) :
    ∃ k', CopyAt src bSize k' (copyRound src bSize s) := by
  have hoffset := @offset_copyRound α src bSize s h.offset
  by_cases hcut : src.length < s.offset + bSize.toNat
  · rw [if_pos hcut] at hoffset
    refine ⟨k + 1, ?_, ?_, ?_, total_copyRound h.total⟩
    · have hall : readBlock src bSize s.offset = src.drop s.offset := by
        refine List.take_of_length_le ?_
        rw [List.length_drop]
        omega
      rw [dest_copyRound, h.dest, hall, hoffset, List.append_assoc, List.take_append_drop,
        List.replicate_succ', List.flatten_append, List.take_zero, List.append_nil]
      simp
    · rw [hoffset]
      exact Nat.zero_le _
    · rw [hoffset]
      exact Nat.dvd_zero _
  · rw [if_neg hcut] at hoffset
    refine ⟨k, ?_, ?_, ?_, total_copyRound h.total⟩
    · rw [dest_copyRound, h.dest, hoffset, List.append_assoc, List.take_add]
      rfl
    · rw [hoffset]
      omega
    · rw [hoffset]
      exact (Nat.dvd_add_right h.block).mpr (Nat.dvd_refl _)

theorem CopyAt.length (h : CopyAt src bSize k s) : s.dest.length = k * src.length + s.offset := by
  have hoffset := h.offset
  rw [h.dest, List.length_append, List.length_flatten, List.map_replicate, List.sum_replicate_nat,
    List.length_take, Nat.min_eq_left hoffset]

theorem CopyAt.isRepetition (h : CopyAt src bSize k s) : IsRepetition src s.dest := by
  refine ⟨k + 1, ?_⟩
  rw [h.dest, List.replicate_succ', List.flatten_append]
  refine (List.prefix_append_right_inj _).mpr ?_
  simpa using List.take_prefix _ _

theorem length_copyRound (h : CopyAt src bSize k s) : (copyRound src bSize s).dest.length =
    k * src.length + s.offset + min bSize.toNat (src.length - s.offset) := by
  rw [dest_copyRound, List.length_append, length_readBlock, h.length]

/-- **A round that passes the transfer size stops at the first end of a block there.** -/
theorem length_of_passes {t : Nat} (h : CopyAt src bSize k s) (hb : 0 < bSize.toNat)
    (hlt : s.dest.length < t) (hle : t ≤ (copyRound src bSize s).dest.length) :
    (copyRound src bSize s).dest.length = blockEnd src.length bSize.toNat t := by
  rw [h.length] at hlt
  rw [length_copyRound h] at hle ⊢
  exact (blockEnd_eq hb h.block h.offset hlt hle).symm

/-- What is left to do: twice the bytes, and the empty read at the end of the file. -/
def copyMeasure (src : List α) (t : Nat) (s : CopyState α) : Nat :=
  2 * (t - s.dest.length) + if s.offset = src.length then 1 else 0

/-- **A round gets somewhere**: it writes something, or it begins the source again. -/
theorem copyMeasure_lt {t : Nat} (h : CopyAt src bSize k s) (hb : 0 < bSize.toNat) (hsrc : src ≠ [])
    (hlt : s.dest.length < t) : copyMeasure src t (copyRound src bSize s) < copyMeasure src t s := by
  have hpos : 0 < src.length := List.length_pos_of_ne_nil hsrc
  have hlength := length_copyRound h
  have hoffset := @offset_copyRound α src bSize s h.offset
  have hle := h.offset
  rw [h.length] at hlt
  unfold copyMeasure
  rw [hlength, hoffset, h.length]
  by_cases hend : s.offset = src.length
  · rw [if_pos (show src.length < s.offset + bSize.toNat by omega), if_neg (by omega), if_pos hend]
    omega
  · rw [if_neg hend]
    generalize (if src.length < s.offset + bSize.toNat then 0 else s.offset + bSize.toNat) = next
    split <;> omega

/-! ### The test

The count and the transfer size are compared as `ssize_t`.  The size is below `2 ^
31`, and so the comparison is right until the count reaches `2 ^ 31`; there it turns
negative, and the loop goes on.
-/

/-- The signed comparison is right as long as the count is below 2^31. -/
theorem slt_of_small {n : Nat} (ht : tSize.toNat < 2 ^ 31) (hn : n < 2 ^ 31) :
    (BitVec.ofNat 32 n).slt tSize = true ↔ n < tSize.toNat := by
  have hn' : (BitVec.ofNat 32 n).toNat = n := by
    rw [BitVec.toNat_ofNat, Nat.mod_eq_of_lt (by omega)]
  rw [BitVec.slt_iff_toInt_lt, BitVec.toInt_eq_toNat_of_lt (by omega),
    BitVec.toInt_eq_toNat_of_lt (by omega), hn']
  omega

/-- From there on it is negative. -/
theorem slt_of_large {n : Nat} (ht : tSize.toNat < 2 ^ 31) (hn : 2 ^ 31 ≤ n) (hn' : n < 2 ^ 32) :
    (BitVec.ofNat 32 n).slt tSize = true := by
  have hcount : (BitVec.ofNat 32 n).toNat = n := by
    rw [BitVec.toNat_ofNat, Nat.mod_eq_of_lt (by omega)]
  rw [BitVec.slt_iff_toInt_lt, BitVec.toInt_eq_toNat_of_lt (x := tSize) (by omega),
    BitVec.toInt_eq_toNat_cond, hcount, if_neg (by omega)]
  omega

/-! ### The loop

Forward by induction on the measure, and backward by induction on the fuel: whatever
fuel the loop stopped with, it stopped at or past the block end, with the test telling
it to.  If the count at that end is out of range these contradict each other, and the
loop does not stop there.
-/

/-- The loop gets to the first end of a block at or past the transfer size, if the count does. -/
theorem copyLoop_reaches (h : CopyAt src bSize k s) (hb : 0 < bSize.toNat) (hsrc : src ≠ [])
    (ht : tSize.toNat < 2 ^ 31) (hlt : s.dest.length < tSize.toNat)
    (hfits : blockEnd src.length bSize.toNat tSize.toNat < 2 ^ 31) :
    ∃ fuel r, copyLoop src bSize tSize fuel s = some r ∧ IsRepetition src r.dest ∧
      r.dest.length = blockEnd src.length bSize.toNat tSize.toNat := by
  induction hm : copyMeasure src tSize.toNat s using Nat.strong_induction_on generalizing s k with
  | _ measure ih =>
      obtain ⟨k', h'⟩ := h.round
      by_cases hpast : tSize.toNat ≤ (copyRound src bSize s).dest.length
      · have hlength := length_of_passes h hb hlt hpast
        have hstop : ¬ (copyRound src bSize s).totalBytesWritten.slt tSize = true := by
          rw [h'.total, slt_of_small ht (by omega)]
          omega
        exact ⟨1, copyRound src bSize s, if_neg hstop, h'.isRepetition, hlength⟩
      · have hnext : (copyRound src bSize s).totalBytesWritten.slt tSize = true := by
          rw [h'.total, slt_of_small ht (by omega)]
          omega
        have hless := copyMeasure_lt h hb hsrc hlt
        obtain ⟨fuel, r, hloop, hr⟩ := ih _ (by omega) h' (by omega) rfl
        exact ⟨fuel + 1, r, (if_pos hnext).trans hloop, hr⟩

/-- A round takes nothing back. -/
theorem length_le_copyLoop (fuel : Nat) (h : copyLoop src bSize tSize fuel s = some r) :
    (copyRound src bSize s).dest.length ≤ r.dest.length := by
  induction fuel generalizing s with
  | zero => cases h
  | succ fuel ih =>
      unfold copyLoop at h
      simp only [] at h
      split at h
      · have hrest := ih h
        rw [dest_copyRound, List.length_append] at hrest
        omega
      · rw [Option.some.inj h]

/-- The loop does not stop before the first end of a block at or past the transfer size. -/
theorem blockEnd_le_copyLoop (fuel : Nat) (h : CopyAt src bSize k s) (hb : 0 < bSize.toNat)
    (ht : tSize.toNat < 2 ^ 31) (hlt : s.dest.length < tSize.toNat)
    (hloop : copyLoop src bSize tSize fuel s = some r) :
    blockEnd src.length bSize.toNat tSize.toNat ≤ r.dest.length := by
  induction fuel generalizing s k with
  | zero => cases hloop
  | succ fuel ih =>
      obtain ⟨k', h'⟩ := h.round
      by_cases hpast : tSize.toNat ≤ (copyRound src bSize s).dest.length
      · rw [← length_of_passes h hb hlt hpast]
        exact length_le_copyLoop _ hloop
      · have hnext : (copyRound src bSize s).totalBytesWritten.slt tSize = true := by
          rw [h'.total, slt_of_small ht (by omega)]
          omega
        exact ih h' (by omega) ((if_pos hnext).symm.trans hloop)

/-- Where the loop stops the test says so, and the bytes are counted. -/
theorem stopped_copyLoop (fuel : Nat) (h : s.totalBytesWritten = BitVec.ofNat 32 s.dest.length)
    (hloop : copyLoop src bSize tSize fuel s = some r) :
    ¬ (BitVec.ofNat 32 r.dest.length).slt tSize = true := by
  induction fuel generalizing s with
  | zero => cases hloop
  | succ fuel ih =>
      have htotal := @total_copyRound α src bSize s h
      unfold copyLoop at hloop
      simp only [] at hloop
      split at hloop
      · exact ih htotal hloop
      · rename_i hstop
        rwa [← Option.some.inj hloop, ← htotal]

/-- **Without anything to write the loop never ends.** -/
theorem copyLoop_stuck (fuel : Nat) (hempty : ∀ offset, readBlock src bSize offset = [])
    (hmore : s.totalBytesWritten.slt tSize = true) : copyLoop src bSize tSize fuel s = none := by
  induction fuel generalizing s with
  | zero => rfl
  | succ fuel ih =>
      have htotal : (copyRound src bSize s).totalBytesWritten = s.totalBytesWritten := by
        rw [copyRound_eq, hempty]
        exact BitVec.add_zero _
      have hnext : (copyRound src bSize s).totalBytesWritten.slt tSize = true := by
        rw [htotal]
        exact hmore
      exact (if_pos hnext).trans (ih hnext)

/-! ### The benchmark -/

theorem atoi_le (str : String) : atoi str ≤ 2147483647 := by
  unfold atoi
  split <;> omega

/-- A number that is not negative is stored as it is. -/
theorem toNat_ofInt_atoi {str : String} (hpos : 0 ≤ atoi str) :
    ((BitVec.ofInt 32 (atoi str)).toNat : Int) = atoi str ∧
      (BitVec.ofInt 32 (atoi str)).toNat < 2 ^ 31 := by
  have hle := atoi_le str
  obtain ⟨n, hn⟩ := Int.eq_ofNat_of_zero_le hpos
  rw [hn, BitVec.ofInt_natCast, BitVec.toNat_ofNat, Nat.mod_eq_of_lt (by omega)]
  omega

/-- **What a command line that is accepted asks for**: no more than a `ssize_t` can count, and at
least a block. -/
theorem parseCommandLine_ok {canOpen : String → Bool} {argv : List String} {args : IoArgs}
    (h : parseCommandLine canOpen argv = .ok args) :
    args.blockSize.toNat ≤ args.tranSize.toNat ∧ args.tranSize.toNat < 2 ^ 31 := by
  unfold parseCommandLine at h
  split at h
  · cases h
  · split at h
    · cases h
    · simp only [] at h
      split at h
      · cases h
      · split at h
        · cases h
        · rename_i hblock
          split at h
          · cases h
          · rename_i htran
            split at h
            · cases h
            · cases h
              obtain ⟨hb, hb'⟩ := @toNat_ofInt_atoi (argv.getD 4 "") (by omega)
              obtain ⟨ht, ht'⟩ := @toNat_ofInt_atoi (argv.getD 5 "") (by omega)
              have hint : (BitVec.ofInt 32 (atoi (argv.getD 4 ""))).toInt =
                  atoi (argv.getD 4 "") := by
                rw [BitVec.toInt_eq_toNat_of_lt (by omega)]
                exact hb
              rw [hint] at htran
              refine ⟨?_, ht'⟩
              show (BitVec.ofInt 32 (atoi (argv.getD 4 ""))).toNat ≤
                (BitVec.ofInt 32 (atoi (argv.getD 5 ""))).toNat
              omega

theorem copyAt_start (src : List α) (bSize : BitVec 32) :
    CopyAt src bSize 0 { offset := 0, dest := [], totalBytesWritten := 0 } :=
  ⟨by simp, Nat.zero_le _, Nat.dvd_zero _, rfl⟩

/-- With nothing to transfer, and so no block, one round is enough. -/
theorem childTask_zero (src : List α) : ∃ r, childTask src 0 0 1 = some r ∧ r.dest = [] := by
  have hnil : readBlock src 0 0 = [] := List.take_zero
  refine ⟨_, rfl, ?_⟩
  rw [dest_copyRound, hnil]
  rfl

/-- **The copy loop writes what was asked for, exactly if** nothing was, or there is something to
write and the first end of a block at or past the transfer size is one that the count can reach. -/
theorem copies_iff {canOpen : String → Bool} {argv : List String} {args : IoArgs}
    (h : parseCommandLine canOpen argv = .ok args) (src : List α) :
    CopiesRequested src args ↔ args.tranSize = 0 ∨ (args.blockSize ≠ 0 ∧ src ≠ [] ∧
      blockEnd src.length args.blockSize.toNat args.tranSize.toNat < 2 ^ 31) := by
  obtain ⟨hblock, ht⟩ := parseCommandLine_ok h
  unfold CopiesRequested
  generalize args.blockSize = bSize at hblock ⊢
  generalize args.tranSize = tSize at hblock ht ⊢
  have hstart := copyAt_start src bSize
  by_cases hzero : tSize = 0
  · subst hzero
    have hb : bSize = 0 := BitVec.eq_of_toNat_eq (Nat.le_zero.mp hblock)
    subst hb
    obtain ⟨r, hr, hnil⟩ := childTask_zero src
    refine iff_of_true ⟨1, r, hr, ⟨0, ?_⟩, Nat.zero_le _, fun hpos => absurd hpos (by decide)⟩
      (Or.inl rfl)
    rw [hnil]
    exact List.nil_prefix
  have hpos : 0 < tSize.toNat :=
    Nat.pos_of_ne_zero fun hnat => hzero (BitVec.eq_of_toNat_eq hnat)
  have hmore : (0 : BitVec 32).slt tSize = true := (slt_of_small ht (by decide)).mpr hpos
  constructor
  · rintro ⟨fuel, r, hloop, -, hle, hlt⟩
    have hwrites : ¬ ∀ offset, readBlock src bSize offset = [] := by
      intro hempty
      have hnone : childTask src bSize tSize fuel = none := copyLoop_stuck fuel hempty hmore
      rw [hnone] at hloop
      cases hloop
    have hb : bSize ≠ 0 := by
      rintro rfl
      exact hwrites fun _ => List.take_zero
    have hsrc : src ≠ [] := by
      rintro rfl
      exact hwrites fun _ => by simp [readBlock]
    have hb' : 0 < bSize.toNat :=
      Nat.pos_of_ne_zero fun hnat => hb (BitVec.eq_of_toNat_eq hnat)
    have hreach := blockEnd_le_copyLoop fuel hstart hb' ht hpos hloop
    have hstop := stopped_copyLoop fuel rfl hloop
    have hshort := hlt hpos
    refine Or.inr ⟨hb, hsrc, ?_⟩
    by_contra hlarge
    exact hstop (slt_of_large ht (by omega) (by omega))
  · rintro (hnone | ⟨hb, hsrc, hfits⟩)
    · exact absurd hnone hzero
    · have hb' : 0 < bSize.toNat :=
        Nat.pos_of_ne_zero fun hnat => hb (BitVec.eq_of_toNat_eq hnat)
      obtain ⟨fuel, r, hloop, hrep, hlength⟩ := copyLoop_reaches hstart hb' hsrc ht hpos hfits
      obtain ⟨hle, hlt⟩ := blockEnd_bounds (List.length_pos_of_ne_nil hsrc) hb' hpos
      exact ⟨fuel, r, hloop, hrep, hlength ▸ hle, fun _ => hlength ▸ hlt⟩

/-- The command line of the benchmark, with these sizes. -/
def sampleArgv (blockSize tranSize : String) : List String :=
  ["test_iobound", "SCHED_WRR", "src", "dest", blockSize, tranSize, "1"]

/-- Seven bytes in blocks of two, from a file of three. -/
theorem copies_seven : ∃ args, parseCommandLine (fun _ => true) (sampleArgv "2" "7") = .ok args ∧
    CopiesRequested ([10, 20, 30] : List (BitVec 8)) args := by
  have hparse : parseCommandLine (fun _ => true) (sampleArgv "2" "7") =
      .ok { policy := 6, childCount := 1, blockSize := 2, tranSize := 7 } := by rfl
  refine ⟨_, hparse, (copies_iff hparse _).mpr (Or.inr ⟨by decide, by simp, ?_⟩)⟩
  show blockEnd 3 2 7 < 2 ^ 31
  decide

/-- **No block at all**: a block size of zero is accepted, and the loop that should transfer a byte
never ends. -/
theorem copies_nothing : ∃ args, parseCommandLine (fun _ => true) (sampleArgv "0" "1") = .ok args ∧
    ¬ CopiesRequested ([10, 20, 30] : List (BitVec 8)) args := by
  have hparse : parseCommandLine (fun _ => true) (sampleArgv "0" "1") =
      .ok { policy := 6, childCount := 1, blockSize := 0, tranSize := 1 } := by rfl
  refine ⟨_, hparse, ?_⟩
  rintro ⟨fuel, r, hloop, -⟩
  have hnone : childTask ([10, 20, 30] : List (BitVec 8)) 0 1 fuel = none :=
    copyLoop_stuck fuel (fun _ => List.take_zero) (by decide)
  exact absurd (hnone.symm.trans hloop) (by simp)

end WrrScheduler
