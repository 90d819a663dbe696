import BatchGateway.FilesStore.Filesystem

/-! What a reader with limits makes of a stream, whatever the reads it arrives in. -/
namespace BatchGateway
namespace LimitedCountingReader

variable {r : LimitedCountingReader} {sizeLimit lineLimit : Int} {seen chunk last : Bytes}
  {chunks : List Bytes}

/-- Read until the first error: the chunks that come without an error, and the one that comes with
the end of the stream. No error stands for the end of the stream. -/
def readAll : LimitedCountingReader → List Bytes → Bytes → LimitedCountingReader × Option FsErr
  | r, [], last => r.read last true
  | r, chunk :: chunks, last =>
    match r.read chunk false with
    | (r, some e) => (r, some e)
    | (r, none) => readAll r chunks last

/-- The stream ends in a line that is not terminated. -/
def unterminated (bs : Bytes) : Bool := bs.getLast?.any (· ≠ 10)

def lines (bs : Bytes) : Nat := bs.count 10 + if unterminated bs then 1 else 0

/-- A limit that is not positive is none. -/
def Within (limit : Int) (n : Nat) : Prop := limit ≤ 0 ∨ n ≤ limit

instance (limit : Int) (n : Nat) : Decidable (Within limit n) := inferInstanceAs (Decidable (_ ∨ _))

theorem Within.mono {limit : Int} {m n : Nat} (h : Within limit n) (hmn : m ≤ n) :
    Within limit m := by
  unfold Within at *
  omega

/-- The reader has counted the lines seen so far, the open one apart. -/
structure Counted (sizeLimit lineLimit : Int) (r : LimitedCountingReader) (seen : Bytes) :
    Prop where
  sizeLimit_eq : r.sizeLimit = sizeLimit
  lineLimit_eq : r.lineLimit = lineLimit
  lineCount : r.lineCount = seen.count 10
  trailing : r.hasTrailingContent = unterminated seen

/-- The reader has counted everything seen so far and found it within the limits. -/
structure Tallied (sizeLimit lineLimit : Int) (r : LimitedCountingReader) (seen : Bytes) : Prop
    extends Counted sizeLimit lineLimit r seen where
  bytesRead : r.bytesRead = seen.length
  size_within : Within sizeLimit seen.length
  lines_within : Within lineLimit (seen.count 10)

theorem unterminated_snoc (seen : Bytes) (b : UInt8) :
    unterminated (seen ++ [b]) = decide (b ≠ 10) := by
  simp [unterminated]

theorem count_snoc (seen : Bytes) (b : UInt8) :
    (seen ++ [b]).count 10 = seen.count 10 + if b = 10 then 1 else 0 := by
  simp [List.count_append, List.count_singleton]

theorem count_le_lines (bs : Bytes) : bs.count 10 ≤ lines bs := Nat.le_add_right _ _

theorem linesExceeded_iff {n : Nat} (hlimit : r.lineLimit = lineLimit) (hcount : r.lineCount = n) :
    r.linesExceeded = true ↔ ¬ Within lineLimit n := by
  unfold linesExceeded Within
  rw [decide_eq_true_iff, hlimit, hcount]
  omega

/-- Counting the lines of a chunk fails iff there are too many, and counts them otherwise. -/
theorem Counted.countLines (h : Counted sizeLimit lineLimit r seen)
    (hw : Within lineLimit (seen.count 10)) (chunk : Bytes) :
    ((r.countLines chunk).2 = none ∧ Within lineLimit ((seen ++ chunk).count 10) ∧
      Counted sizeLimit lineLimit (r.countLines chunk).1 (seen ++ chunk) ∧
      (r.countLines chunk).1.bytesRead = r.bytesRead) ∨
    ((r.countLines chunk).2 = some .tooManyLines ∧
      ¬ Within lineLimit ((seen ++ chunk).count 10)) := by
  -- the bytes counted so far grow by one byte of the chunk at a time
  induction chunk generalizing r seen with
  | nil => exact .inl ⟨rfl, by simpa using hw, by simpa [LimitedCountingReader.countLines], rfl⟩
  | cons b bs ih =>
    have hsplit : seen ++ b :: bs = (seen ++ [b]) ++ bs := by simp
    rw [hsplit]
    have hcount := count_snoc seen b
    have htrailing := unterminated_snoc seen b
    unfold LimitedCountingReader.countLines
    by_cases hb : b = 10
    · simp only [hb, if_true] at hcount ⊢
      have hnext : Counted sizeLimit lineLimit
          { r with lineCount := r.lineCount + 1, hasTrailingContent := false } (seen ++ [10]) := by
        subst hb
        refine ⟨h.sizeLimit_eq, h.lineLimit_eq, ?_, by simp [htrailing]⟩
        simp only [h.lineCount, hcount]
        omega
      by_cases hw' : Within lineLimit ((seen ++ [10]).count 10)
      · have hnot := mt (linesExceeded_iff hnext.lineLimit_eq hnext.lineCount).1 (not_not.2 hw')
        simp only [hnot, Bool.false_eq_true, if_false]
        exact ih hnext hw'
      · have hexceeded := (linesExceeded_iff hnext.lineLimit_eq hnext.lineCount).2 hw'
        simp only [hexceeded, if_true]
        have hle : (seen ++ [10]).count 10 ≤ (seen ++ [10] ++ bs).count 10 :=
          (List.sublist_append_left _ _).count_le _
        exact .inr ⟨trivial, fun hall => hw' (hall.mono hle)⟩
    · simp only [hb, if_false] at hcount ⊢
      have hnext : Counted sizeLimit lineLimit { r with hasTrailingContent := true }
          (seen ++ [b]) := by
        refine ⟨h.sizeLimit_eq, h.lineLimit_eq, ?_, by simp [htrailing, hb]⟩
        simp only [h.lineCount, hcount]
        rfl
      exact ih hnext (by rwa [hcount])

/-- A read fails iff the bytes so far exceed a limit, where the end of the stream ends its last
line. -/
theorem Tallied.read (h : Tallied sizeLimit lineLimit r seen) (chunk : Bytes) (eof : Bool) :
    let n := (seen ++ chunk).count 10 + if eof ∧ unterminated (seen ++ chunk) then 1 else 0
    ((r.read chunk eof).2 = none ∧ Within sizeLimit (seen ++ chunk).length ∧ Within lineLimit n ∧
      (r.read chunk eof).1.bytesRead = (seen ++ chunk).length ∧
      (r.read chunk eof).1.lineCount = n ∧
      (eof = false → Counted sizeLimit lineLimit (r.read chunk eof).1 (seen ++ chunk))) ∨
    ((r.read chunk eof).2 = some .fileTooLarge ∧ ¬ Within sizeLimit (seen ++ chunk).length) ∨
    ((r.read chunk eof).2 = some .tooManyLines ∧ ¬ Within lineLimit n) := by
  intro n
  have hbytes : r.bytesRead + chunk.length = (seen ++ chunk).length := by
    rw [h.bytesRead, List.length_append, Nat.cast_add]
  have hcounted : Counted sizeLimit lineLimit { r with bytesRead := r.bytesRead + chunk.length }
      seen := ⟨h.sizeLimit_eq, h.lineLimit_eq, h.lineCount, h.trailing⟩
  have hn : (seen ++ chunk).count 10 ≤ n := Nat.le_add_right _ _
  unfold LimitedCountingReader.read
  by_cases hsize : Within sizeLimit (seen ++ chunk).length
  · have hpass : ¬ (0 < r.sizeLimit ∧ r.sizeLimit < r.bytesRead + chunk.length) := by
      rw [h.sizeLimit_eq, hbytes]
      unfold Within at hsize
      omega
    simp only [hpass, if_false]
    have hlines := hcounted.countLines h.lines_within chunk
    generalize LimitedCountingReader.countLines
      { r with bytesRead := r.bytesRead + chunk.length } chunk = res at hlines
    obtain ⟨r', err⟩ := res
    rcases hlines with ⟨rfl, hw, hc, hb⟩ | ⟨rfl, hw⟩
    · simp only at hc hb ⊢
      by_cases hlast : eof ∧ unterminated (seen ++ chunk)
      · -- the end of the stream ends the open line
        have hcount : r'.lineCount + 1 = n := by
          simp only [n, hlast, and_self, if_true, hc.lineCount, Nat.cast_add, Nat.cast_one]
        have hexceeded := linesExceeded_iff (r := { r' with lineCount := r'.lineCount + 1 })
          hc.lineLimit_eq hcount
        have hend : eof = true ∧ r'.hasTrailingContent = true :=
          ⟨hlast.1, hc.trailing.trans hlast.2⟩
        simp only [if_pos hend]
        by_cases hw' : Within lineLimit n
        · rw [if_neg fun he => hexceeded.1 he hw']
          exact .inl ⟨rfl, hsize, hw', hb.trans hbytes, hcount,
            fun hf => absurd hlast.1 (by simp [hf])⟩
        · rw [if_pos (hexceeded.2 hw')]
          exact .inr (.inr ⟨rfl, hw'⟩)
      · have hcount : (seen ++ chunk).count 10 = n := by simp [n, hlast]
        simp only [hc.trailing, hlast, if_false]
        exact .inl ⟨trivial, hsize, hcount ▸ hw, hb.trans hbytes, hcount ▸ hc.lineCount,
          fun _ => hc⟩
    · exact .inr (.inr ⟨rfl, fun hall => hw (hall.mono hn)⟩)
  · have hfail : 0 < r.sizeLimit ∧ r.sizeLimit < r.bytesRead + chunk.length := by
      rw [h.sizeLimit_eq, hbytes]
      unfold Within at hsize
      omega
    simp only [hfail, and_self, if_true]
    exact .inr (.inl ⟨trivial, hsize⟩)

/-- The same for every read up to the end of the stream. -/
theorem Tallied.readAll (h : Tallied sizeLimit lineLimit r seen) (chunks : List Bytes)
    (last : Bytes) :
    let stream := seen ++ (chunks.flatten ++ last)
    ((r.readAll chunks last).2 = none ∧ Within sizeLimit stream.length ∧
      Within lineLimit (lines stream) ∧ (r.readAll chunks last).1.bytesRead = stream.length ∧
      (r.readAll chunks last).1.lineCount = lines stream) ∨
    ((r.readAll chunks last).2 = some .fileTooLarge ∧ ¬ Within sizeLimit stream.length) ∨
    ((r.readAll chunks last).2 = some .tooManyLines ∧ ¬ Within lineLimit (lines stream)) := by
  -- `seen` grows by one chunk at a time
  induction chunks generalizing r seen with
  | nil =>
    have hread := h.read last true
    simp only [true_and, List.flatten_nil, List.nil_append, LimitedCountingReader.readAll] at hread ⊢
    rcases hread with ⟨he, hs, hl, hb, hc, -⟩ | hread
    · exact .inl ⟨he, hs, hl, hb, hc⟩
    · exact .inr hread
  | cons chunk chunks ih =>
    intro stream
    have hstream : stream = (seen ++ chunk) ++ (chunks.flatten ++ last) := by
      simp [stream, List.append_assoc]
    have hlen : (seen ++ chunk).length ≤ stream.length := by
      rw [hstream]
      exact (List.sublist_append_left _ _).length_le
    have hlines : (seen ++ chunk).count 10 ≤ lines stream := by
      refine le_trans ?_ (count_le_lines stream)
      rw [hstream]
      exact (List.sublist_append_left _ _).count_le _
    have hread := h.read chunk false
    simp only [Bool.false_eq_true, false_and, if_false, Nat.add_zero] at hread
    unfold LimitedCountingReader.readAll
    generalize r.read chunk false = res at hread
    obtain ⟨r', err⟩ := res
    rcases hread with ⟨rfl, hs, hl, hb, -, hc⟩ | ⟨rfl, hs⟩ | ⟨rfl, hl⟩
    · have hnext : Tallied sizeLimit lineLimit r' (seen ++ chunk) := ⟨hc trivial, hb, hs, hl⟩
      rw [hstream]
      exact ih hnext
    · exact .inr (.inl ⟨rfl, fun hall => hs (hall.mono hlen)⟩)
    · exact .inr (.inr ⟨rfl, fun hall => hl (hall.mono hlines)⟩)

theorem tallied_start (sizeLimit lineLimit : Int) :
    Tallied sizeLimit lineLimit { sizeLimit, lineLimit } [] where
  sizeLimit_eq := rfl
  lineLimit_eq := rfl
  lineCount := rfl
  trailing := rfl
  bytesRead := rfl
  size_within := by
    unfold Within
    simp only [List.length_nil]
    omega
  lines_within := by
    unfold Within
    simp only [List.count_nil]
    omega

/-- However a stream is split into reads, it is read to its end iff it is within the limits, and
then its bytes and lines are counted. -/
theorem readAll_eof_iff (sizeLimit lineLimit : Int) (chunks : List Bytes) (last : Bytes) :
    let stream := chunks.flatten ++ last
    let result := readAll { sizeLimit, lineLimit } chunks last
    (result.2 = none ↔ Within sizeLimit stream.length ∧ Within lineLimit (lines stream)) ∧
    (result.2 = none →
      result.1.bytesRead = stream.length ∧ result.1.lineCount = lines stream) := by
  intro stream result
  have hall := (tallied_start sizeLimit lineLimit).readAll chunks last
  rw [List.nil_append] at hall
  rcases hall with ⟨he, hs, hl, hb, hc⟩ | ⟨he, hs⟩ | ⟨he, hl⟩
  · exact ⟨⟨fun _ => ⟨hs, hl⟩, fun _ => he⟩, fun _ => ⟨hb, hc⟩⟩
  · refine ⟨⟨fun hnone => ?_, fun hw => absurd hw.1 hs⟩, fun hnone => ?_⟩ <;>
      cases he.symm.trans hnone
  · refine ⟨⟨fun hnone => ?_, fun hw => absurd hw.2 hl⟩, fun hnone => ?_⟩ <;>
      cases he.symm.trans hnone

/-- A stream of two lines, the second one open, in four reads of which one is empty. -/
theorem splitStream_counted :
    let result := readAll ⟨4, 2, 0, 0, false⟩ [[97], [], [98, 10]] [99]
    result.2 = none ∧ result.1.bytesRead = 4 ∧ result.1.lineCount = 2 := by
  have h := readAll_eof_iff 4 2 [[97], [], [98, 10]] [99]
  have heof := h.1.2 (by decide)
  exact ⟨heof, h.2 heof⟩

end LimitedCountingReader
end BatchGateway
