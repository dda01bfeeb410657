import FileVault.Core.FileVaultVolume

/-!
# The read loops

Whether the backing reader failed during a call is read off its plan: the answers
the call used up are what the plan before it has in front of the plan after it. A
reader is healthy when none of its calls fails for good: it may still deliver short
reads and interrupts. Over such a reader both read loops, the exact one and the one
that stops at the end of the data, are functions of the data alone.
-/

namespace FileVault

open Lib

/-- No `read` and no `seek` of the plan fails. -/
def Reader.Healthy (r : Reader) : Prop :=
  (∀ code cursor, ReadStep.fail code cursor ∉ r.reads) ∧
    ∀ code cursor, SeekStep.fail code cursor ∉ r.seeks

theorem Reader.healthy_cursor (data : Bytes) : (Reader.cursor data).Healthy := by
  simp [Healthy, cursor]

/-- The same bytes later on, after answers of which none was a failure. -/
structure Reader.Serves (r r' : Reader) : Prop where
  data : r'.data = r.data
  reads : ∃ steps, r.reads = steps ++ r'.reads ∧ ∀ code cursor, ReadStep.fail code cursor ∉ steps
  seeks : ∃ steps, r.seeks = steps ++ r'.seeks ∧ ∀ code cursor, SeekStep.fail code cursor ∉ steps

/-- The reader went from `r` to `r'`, and one of the answers it gave on the way was a
failure. -/
def Reader.FailedBefore (r r' : Reader) : Prop :=
  (∃ steps, r.reads = steps ++ r'.reads ∧ ∃ code cursor, ReadStep.fail code cursor ∈ steps) ∨
    ∃ steps, r.seeks = steps ++ r'.seeks ∧ ∃ code cursor, SeekStep.fail code cursor ∈ steps

/-- A later stage of the same reader: same data, and still healthy. -/
structure Reader.Follows (r r' : Reader) : Prop where
  data : r'.data = r.data
  healthy : r'.Healthy

namespace Reader

theorem Follows.refl {r : Reader} (h : r.Healthy) : r.Follows r := ⟨rfl, h⟩

theorem Serves.refl (r : Reader) : r.Serves r := ⟨rfl, ⟨[], by simp⟩, ⟨[], by simp⟩⟩

/-- A reader that has served has not failed. -/
theorem Serves.not_failed {r r' : Reader} (h : r.Serves r') : ¬ r.FailedBefore r' := by
  obtain ⟨-, ⟨reads, hreads, hr⟩, ⟨seeks, hseeks, hs⟩⟩ := h
  rintro (⟨steps, hsteps, code, cursor, hmem⟩ | ⟨steps, hsteps, code, cursor, hmem⟩)
  · rw [hreads] at hsteps
    exact hr code cursor (List.append_cancel_right hsteps ▸ hmem)
  · rw [hseeks] at hsteps
    exact hs code cursor (List.append_cancel_right hsteps ▸ hmem)

theorem Serves.trans {r r' r'' : Reader} (h : r.Serves r') (h' : r'.Serves r'') :
    r.Serves r'' := by
  obtain ⟨data, ⟨reads, hreads, hr⟩, ⟨seeks, hseeks, hs⟩⟩ := h
  obtain ⟨data', ⟨reads', hreads', hr'⟩, ⟨seeks', hseeks', hs'⟩⟩ := h'
  refine ⟨data'.trans data, ⟨reads ++ reads', by rw [hreads, hreads', List.append_assoc], ?_⟩,
    ⟨seeks ++ seeks', by rw [hseeks, hseeks', List.append_assoc], ?_⟩⟩
  · intro code cursor hmem
    rcases List.mem_append.mp hmem with h | h
    · exact hr code cursor h
    · exact hr' code cursor h
  · intro code cursor hmem
    rcases List.mem_append.mp hmem with h | h
    · exact hs code cursor h
    · exact hs' code cursor h

/-- A failure after some service. -/
theorem Serves.failed {r r' r'' : Reader} (h : r.Serves r') (h' : r'.FailedBefore r'') :
    r.FailedBefore r'' := by
  obtain ⟨-, ⟨reads, hreads, -⟩, ⟨seeks, hseeks, -⟩⟩ := h
  rcases h' with ⟨steps, hsteps, code, cursor, hmem⟩ | ⟨steps, hsteps, code, cursor, hmem⟩
  · exact .inl ⟨reads ++ steps, by rw [hreads, hsteps, List.append_assoc], code, cursor,
      List.mem_append_right _ hmem⟩
  · exact .inr ⟨seeks ++ steps, by rw [hseeks, hsteps, List.append_assoc], code, cursor,
      List.mem_append_right _ hmem⟩

/-- A healthy reader does not fail. -/
theorem Healthy.not_failed {r r' : Reader} (h : r.Healthy) : ¬ r.FailedBefore r' := by
  obtain ⟨hreads, hseeks⟩ := h
  rintro (⟨steps, hsteps, code, cursor, hmem⟩ | ⟨steps, hsteps, code, cursor, hmem⟩)
  · exact hreads code cursor (hsteps ▸ List.mem_append_left _ hmem)
  · exact hseeks code cursor (hsteps ▸ List.mem_append_left _ hmem)

/-- A healthy reader stays healthy. -/
theorem Serves.follows {r r' : Reader} (h : r.Serves r') (healthy : r.Healthy) :
    r.Follows r' := by
  obtain ⟨data, ⟨reads, hsteps, -⟩, ⟨seeks, hsteps', -⟩⟩ := h
  obtain ⟨hreads, hseeks⟩ := healthy
  refine ⟨data, fun code cursor hmem => ?_, fun code cursor hmem => ?_⟩
  · exact hreads code cursor (hsteps ▸ List.mem_append_right _ hmem)
  · exact hseeks code cursor (hsteps' ▸ List.mem_append_right _ hmem)

/-- What a `read` with room for something does: it retries, or it delivers a stretch at
the cursor, empty only at the end of the data, or it fails. -/
theorem read_outcome {r r' : Reader} {want : Nat} (hwant : 0 < want) {reply : ReadReply}
    (hread : r.read want = (reply, r')) :
    (r.Serves r' ∧ ((reply = .interrupted ∧ r'.pos = r.pos) ∨
      ∃ n, reply = .bytes (slice r.data r.pos n) ∧
        r'.pos = r.pos + (slice r.data r.pos n).length ∧ 0 < n ∧ n ≤ want)) ∨
    (r.FailedBefore r' ∧ r'.data = r.data ∧ ∃ e, reply = .failed e) := by
  unfold Reader.read at hread
  cases hplan : r.reads with
  | nil =>
      simp only [hplan, Prod.mk.injEq] at hread
      obtain ⟨rfl, rfl⟩ := hread
      exact .inl ⟨⟨rfl, ⟨[], by simp [hplan]⟩, ⟨[], by simp⟩⟩, .inr ⟨want, rfl, rfl, hwant, le_rfl⟩⟩
  | cons step rest =>
      cases step with
      | short n =>
          simp only [hplan, Prod.mk.injEq] at hread
          obtain ⟨rfl, rfl⟩ := hread
          exact .inl ⟨⟨rfl, ⟨[.short n], by simp [hplan]⟩, ⟨[], by simp⟩⟩,
            .inr ⟨min want (n + 1), rfl, rfl, by omega, by omega⟩⟩
      | interrupted =>
          simp only [hplan, Prod.mk.injEq] at hread
          obtain ⟨rfl, rfl⟩ := hread
          exact .inl ⟨⟨rfl, ⟨[.interrupted], by simp [hplan]⟩, ⟨[], by simp⟩⟩, .inl ⟨rfl, rfl⟩⟩
      | fail code cursor =>
          simp only [hplan, Prod.mk.injEq] at hread
          obtain ⟨rfl, rfl⟩ := hread
          exact .inr ⟨.inl ⟨[.fail code cursor], by simp [hplan], code, cursor, by simp⟩, rfl,
            _, rfl⟩

/-- A retry leaves the cursor where it is. -/
theorem read_interrupted {r r' : Reader} {want : Nat} (hwant : 0 < want)
    (hread : r.read want = (.interrupted, r')) : r.Serves r' ∧ r'.pos = r.pos := by
  rcases read_outcome hwant hread with ⟨serves, ⟨-, hpos⟩ | ⟨n, hreply, -⟩⟩ | ⟨-, -, e, hreply⟩
  · exact ⟨serves, hpos⟩
  · simp at hreply
  · simp at hreply

/-- What is delivered is a stretch at the cursor. -/
theorem read_bytes {r r' : Reader} {want : Nat} {bs : Bytes} (hwant : 0 < want)
    (hread : r.read want = (.bytes bs, r')) :
    r.Serves r' ∧ ∃ n, bs = slice r.data r.pos n ∧
      r'.pos = r.pos + (slice r.data r.pos n).length ∧ 0 < n ∧ n ≤ want := by
  rcases read_outcome hwant hread with
    ⟨serves, ⟨hreply, -⟩ | ⟨n, hreply, hpos, hn, hle⟩⟩ | ⟨-, -, e, hreply⟩
  · simp at hreply
  · exact ⟨serves, n, ReadReply.bytes.inj hreply, hpos, hn, hle⟩
  · simp at hreply

/-- An error is a failure of the reader. -/
theorem read_failed {r r' : Reader} {want : Nat} {e : IoError} (hwant : 0 < want)
    (hread : r.read want = (.failed e, r')) : r.FailedBefore r' ∧ r'.data = r.data := by
  rcases read_outcome hwant hread with ⟨-, ⟨hreply, -⟩ | ⟨n, hreply, -⟩⟩ | ⟨failed, hdata, -⟩
  · simp at hreply
  · simp at hreply
  · exact ⟨failed, hdata⟩

/-- What a `seek` does. -/
theorem seek_outcome {r r' : Reader} {target : Nat} {result : Except IoError Unit}
    (hseek : r.seek target = (result, r')) :
    (r.Serves r' ∧ r'.pos = target ∧ result = .ok ()) ∨
      (r.FailedBefore r' ∧ r'.data = r.data ∧ ∃ e, result = .error e) := by
  unfold Reader.seek at hseek
  cases hplan : r.seeks with
  | nil =>
      simp only [hplan, Prod.mk.injEq] at hseek
      obtain ⟨rfl, rfl⟩ := hseek
      exact .inl ⟨⟨rfl, ⟨[], by simp⟩, ⟨[], by simp [hplan]⟩⟩, rfl, rfl⟩
  | cons step rest =>
      cases step with
      | ok =>
          simp only [hplan, Prod.mk.injEq] at hseek
          obtain ⟨rfl, rfl⟩ := hseek
          exact .inl ⟨⟨rfl, ⟨[], by simp⟩, ⟨[.ok], by simp [hplan]⟩⟩, rfl, rfl⟩
      | fail code cursor =>
          simp only [hplan, Prod.mk.injEq] at hseek
          obtain ⟨rfl, rfl⟩ := hseek
          exact .inr ⟨.inr ⟨[.fail code cursor], by simp [hplan], code, cursor, by simp⟩, rfl,
            _, rfl⟩

end Reader

/-- A stretch with room for something is empty only at the end of the data. -/
theorem slice_eq_nil {data : Bytes} {pos n : Nat} (hn : 0 < n) (h : slice data pos n = []) :
    data.length ≤ pos := by
  have hlen := congrArg List.length h
  rw [slice_length, List.length_nil] at hlen
  omega

/-- One delivered stretch and the rest of the request are the whole request. -/
theorem splice_slice_continue {buf data : Bytes} {filled pos n : Nat}
    (hroom : filled ≤ buf.length) (hn : n ≤ buf.length - filled) :
    splice (splice buf filled (slice data pos n)) (filled + (slice data pos n).length)
      (slice data (pos + (slice data pos n).length)
        (buf.length - (filled + (slice data pos n).length))) =
      splice buf filled (slice data pos (buf.length - filled)) := by
  have hlen : (slice data pos n).length ≤ n := by
    rw [slice_length]
    omega
  rw [splice_splice_adjacent (by omega)]
  congr 1
  have split : buf.length - filled =
      (slice data pos n).length + (buf.length - (filled + (slice data pos n).length)) := by
    omega
  conv_rhs => rw [split, slice_add, slice_slice_length]

/-- `read_full_or_eof` fills the buffer with what the data holds from the cursor on, and
leaves the rest of it as it was, unless the reader fails: then it is an error. -/
theorem readFullOrEof_outcome (reader : Reader) {buf : Bytes} {filled : Nat}
    (hroom : filled ≤ buf.length) :
    (∃ reader', reader.Serves reader' ∧ readFullOrEof reader buf filled =
      (.ok (), splice buf filled (slice reader.data reader.pos (buf.length - filled)),
        reader')) ∨
    ∃ e buf' reader', reader.FailedBefore reader' ∧ reader'.data = reader.data ∧
      readFullOrEof reader buf filled = (.error e, buf', reader') := by
  -- along the calls of `read`: each moves the cursor by what it delivers
  fun_induction readFullOrEof reader buf filled with
  | case1 reader buf filled hlt reader' hread =>
      obtain ⟨serves, n, hempty, -, hn, -⟩ := Reader.read_bytes (by omega) hread
      have past := slice_eq_nil hn hempty.symm
      have none : slice reader.data reader.pos (buf.length - filled) = [] := by
        rw [List.eq_nil_iff_length_eq_zero, slice_length]
        omega
      exact .inl ⟨reader', serves, by rw [none]; simp [splice]⟩
  | case2 reader buf filled hlt bs reader' hread hne ih =>
      obtain ⟨serves, n, rfl, hpos, -, hle⟩ := Reader.read_bytes (by omega) hread
      have hbs : (slice reader.data reader.pos n).length ≤ n := by
        rw [slice_length]
        omega
      have hfull : (splice buf filled (slice reader.data reader.pos n)).length = buf.length :=
        splice_length (by omega)
      rcases ih (by omega) with ⟨reader'', later, heq⟩ | ⟨e, buf', reader'', failed, hdata, heq⟩
      · refine .inl ⟨reader'', serves.trans later, ?_⟩
        rw [heq, hfull, serves.data, hpos, splice_slice_continue hroom hle]
      · exact .inr ⟨e, buf', reader'', serves.failed failed, hdata.trans serves.data, heq⟩
  | case3 reader buf filled hlt reader' hread ih =>
      obtain ⟨serves, hpos⟩ := Reader.read_interrupted (by omega) hread
      rcases ih hroom with ⟨reader'', later, heq⟩ | ⟨e, buf', reader'', failed, hdata, heq⟩
      · exact .inl ⟨reader'', serves.trans later, by rw [heq, serves.data, hpos]⟩
      · exact .inr ⟨e, buf', reader'', serves.failed failed, hdata.trans serves.data, heq⟩
  | case4 reader buf filled hlt e reader' hread =>
      obtain ⟨failed, hdata⟩ := Reader.read_failed (by omega) hread
      exact .inr ⟨e, buf, reader', failed, hdata, rfl⟩
  | case5 reader buf filled hfull =>
      have hnone : buf.length - filled = 0 := by omega
      exact .inl ⟨reader, .refl reader, by rw [hnone]; simp [splice]⟩

/-- `read_exact` delivers a range that lies inside the data, and reports the end of the
data for any other, unless the reader fails: then it is that error. -/
theorem Reader.readExact_outcome (reader : Reader) {buf : Bytes} {filled : Nat}
    (hroom : filled ≤ buf.length) :
    (∃ reader', reader.Serves reader' ∧
      (filled = buf.length ∨ reader.pos + (buf.length - filled) ≤ reader.data.length) ∧
      reader.readExact buf filled =
        (.ok (), splice buf filled (slice reader.data reader.pos (buf.length - filled)),
          reader')) ∨
    (∃ buf' reader', reader.Serves reader' ∧ filled < buf.length ∧
      reader.data.length < reader.pos + (buf.length - filled) ∧
      reader.readExact buf filled = (.error .unexpectedEof, buf', reader')) ∨
    ∃ e buf' reader', reader.FailedBefore reader' ∧ reader'.data = reader.data ∧
      reader.readExact buf filled = (.error e, buf', reader') := by
  fun_induction Reader.readExact reader buf filled with
  | case1 reader buf filled hlt reader' hread =>
      obtain ⟨serves, n, hempty, -, hn, -⟩ := Reader.read_bytes (by omega) hread
      have past := slice_eq_nil hn hempty.symm
      exact .inr (.inl ⟨buf, reader', serves, hlt, by omega, rfl⟩)
  | case2 reader buf filled hlt bs reader' hread hne ih =>
      obtain ⟨serves, n, rfl, hpos, -, hle⟩ := Reader.read_bytes (by omega) hread
      have hsome := List.length_pos_iff.mpr hne
      have hbs := slice_length reader.data reader.pos n
      have hfull : (splice buf filled (slice reader.data reader.pos n)).length = buf.length :=
        splice_length (by omega)
      -- what is left of the request is in the data exactly if the whole of it is
      rcases ih (by omega) with ⟨reader'', later, inside, heq⟩ |
        ⟨buf'', reader'', later, hlt', past, heq⟩ | ⟨e, buf'', reader'', failed, hdata, heq⟩
      · refine .inl ⟨reader'', serves.trans later, .inr ?_, ?_⟩
        · rw [hfull, hpos, serves.data] at inside
          omega
        · rw [heq, hfull, serves.data, hpos, splice_slice_continue hroom hle]
      · refine .inr (.inl ⟨buf'', reader'', serves.trans later, hlt, ?_, heq⟩)
        rw [hpos, hfull, serves.data] at past
        omega
      · exact .inr (.inr ⟨e, buf'', reader'', serves.failed failed, hdata.trans serves.data, heq⟩)
  | case3 reader buf filled hlt reader' hread ih =>
      obtain ⟨serves, hpos⟩ := Reader.read_interrupted (by omega) hread
      rcases ih hroom with ⟨reader'', later, inside, heq⟩ |
        ⟨buf'', reader'', later, hlt', past, heq⟩ | ⟨e, buf'', reader'', failed, hdata, heq⟩
      · rw [hpos, serves.data] at inside
        exact .inl ⟨reader'', serves.trans later, inside, by rw [heq, serves.data, hpos]⟩
      · rw [hpos, serves.data] at past
        exact .inr (.inl ⟨buf'', reader'', serves.trans later, hlt, past, heq⟩)
      · exact .inr (.inr ⟨e, buf'', reader'', serves.failed failed, hdata.trans serves.data, heq⟩)
  | case4 reader buf filled hlt e reader' hread =>
      obtain ⟨failed, hdata⟩ := Reader.read_failed (by omega) hread
      exact .inr (.inr ⟨e, buf, reader', failed, hdata, rfl⟩)
  | case5 reader buf filled hfull =>
      have hnone : buf.length - filled = 0 := by omega
      exact .inl ⟨reader, .refl reader, .inl (by omega), by rw [hnone]; simp [splice]⟩

/-- `read_exact` keeps the length of its buffer, over any reader. -/
theorem Reader.readExact_length (reader : Reader) (buf : Bytes) (filled : Nat)
    (hroom : filled ≤ buf.length) : (reader.readExact buf filled).2.1.length = buf.length := by
  fun_induction Reader.readExact reader buf filled with
  | case1 => rfl
  | case2 reader buf filled hlt bs reader' hread hne ih =>
      have hbs := Reader.read_length_le hread
      have hfull : (splice buf filled bs).length = buf.length := splice_length (by omega)
      rw [ih (by omega), hfull]
  | case3 reader buf filled hlt reader' hread ih => exact ih hroom
  | case4 => rfl
  | case5 => rfl

end FileVault
