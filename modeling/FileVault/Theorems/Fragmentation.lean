import FileVault.Lib.Loop
import FileVault.Logic.Backing

/-!
# Fragmented reads

How the backing reader cuts up what it delivers, and how often it is interrupted, makes no
difference to `read_full_or_eof`: the buffer has the bytes there are, and behind them what it had.
Only a hard error that comes before the buffer is full or the end is reported is passed on.
-/

namespace FileVault

open Lib

/-- The bytes that these answers deliver, as far as there are as many. -/
def granted : List ReadStep → Nat
  | [] => 0
  | .short n :: rest => n + 1 + granted rest
  | .interrupted :: rest => granted rest
  | .fail _ _ :: rest => granted rest

/-- Reading into room for `room` bytes what is left of `size`, the reader fails behind the
answers `served`: each delivery among them still found something, and they do not fill the room. -/
structure FailsBehind (size room : Nat) (plan served : List ReadStep) (code cursor : Nat)
    (rest : List ReadStep) : Prop where
  plan_eq : plan = served ++ .fail code cursor :: rest
  first : ∀ code cursor, ReadStep.fail code cursor ∉ served
  not_eof : ∀ front n back, served = front ++ .short n :: back → granted front < size
  not_full : min (granted served) size < room

/-- A buffer with these bytes at its start, and behind them what it had. -/
def filledBuffer (bytes buf : Bytes) : Bytes := bytes ++ buf.drop bytes.length

/-- What the reader has from its cursor on. -/
def Reader.remaining (reader : Reader) : Bytes := reader.data.drop reader.pos

/-- One pass of the loop of `read_full_or_eof`, over the reader, the buffer, and how much of it
is filled. -/
def fillPass (s : Reader × Bytes × Nat) :
    Pass (Reader × Bytes × Nat) (Except IoError Unit × Bytes × Reader) :=
  if s.2.2 < s.2.1.length then
    match s.1.read (s.2.1.length - s.2.2) with
    | (.bytes bs, reader') =>
        if bs = [] then .leave (.ok (), s.2.1, reader')
        else .again (reader', splice s.2.1 s.2.2 bs, s.2.2 + bs.length)
    | (.interrupted, reader') => .again (reader', s.2.1, s.2.2)
    | (.failed e, reader') => .leave (.error e, s.2.1, reader')
  else .leave (.ok (), s.2.1, s.1)

/-- The buffer has what there is, whatever the schedule; a hard error in time is returned, over
the bytes delivered so far; and the loop returns. -/
structure FillsWhateverSchedule (reader : Reader) (buf : Bytes) : Prop where
  clean : (∀ code cursor, ReadStep.fail code cursor ∉ reader.reads) →
    ∃ reader', readFullOrEof reader buf 0 =
      (.ok (), filledBuffer (reader.remaining.take buf.length) buf, reader')
  filled : (∀ served code cursor rest,
      ¬ FailsBehind reader.remaining.length buf.length reader.reads served code cursor rest) →
    ∃ reader', readFullOrEof reader buf 0 =
      (.ok (), filledBuffer (reader.remaining.take buf.length) buf, reader')
  failed : ∀ served code cursor rest,
    FailsBehind reader.remaining.length buf.length reader.reads served code cursor rest →
      readFullOrEof reader buf 0 = (.error (.device code),
        filledBuffer (reader.remaining.take (granted served)) buf,
        { reader with pos := cursor, reads := rest })
  returns : ∀ fuel, reader.reads.length + buf.length < fuel →
    runLoop fillPass fuel (reader, buf, 0) = some (readFullOrEof reader buf 0)

/-! ## One answer -/

section

variable {reader reader' : Reader} {buf bs : Bytes} {filled want n code cursor : Nat}
  {rest : List ReadStep}

/-- The loop is its passes. -/
theorem readFullOrEof_pass (reader : Reader) (buf : Bytes) (filled : Nat) :
    readFullOrEof reader buf filled =
      match fillPass (reader, buf, filled) with
      | .leave r => r
      | .again s => readFullOrEof s.1 s.2.1 s.2.2 := by
  rw [readFullOrEof, fillPass]
  by_cases hroom : filled < buf.length
  · rw [dif_pos hroom, if_pos hroom]
    rcases reader.read (buf.length - filled) with ⟨reply, reader'⟩
    cases reply with
    | bytes bs =>
        by_cases hempty : bs = []
        · simp [hempty]
        · simp [hempty]
    | interrupted => rfl
    | failed e => rfl
  · rw [dif_neg hroom, if_neg hroom]

theorem readFullOrEof_full (hfull : buf.length ≤ filled) :
    readFullOrEof reader buf filled = (.ok (), buf, reader) := by
  rw [readFullOrEof, dif_neg (by omega)]

/-- Nothing delivered is the end of the data. -/
theorem readFullOrEof_eof (hroom : filled < buf.length)
    (hread : reader.read (buf.length - filled) = (.bytes [], reader')) :
    readFullOrEof reader buf filled = (.ok (), buf, reader') := by
  rw [readFullOrEof_pass, fillPass, if_pos hroom]
  simp only [hread, if_true]

/-- What is delivered goes into the buffer. -/
theorem readFullOrEof_bytes (hroom : filled < buf.length) (hne : bs ≠ [])
    (hread : reader.read (buf.length - filled) = (.bytes bs, reader')) :
    readFullOrEof reader buf filled =
      readFullOrEof reader' (splice buf filled bs) (filled + bs.length) := by
  rw [readFullOrEof_pass, fillPass, if_pos hroom]
  simp only [hread, if_neg hne]

/-- An interrupt changes nothing. -/
theorem readFullOrEof_interrupted (hroom : filled < buf.length)
    (hplan : reader.reads = .interrupted :: rest) :
    readFullOrEof reader buf filled = readFullOrEof { reader with reads := rest } buf filled := by
  rw [readFullOrEof_pass, fillPass, if_pos hroom]
  simp only [Reader.read, hplan]

theorem readFullOrEof_fail (hroom : filled < buf.length)
    (hplan : reader.reads = .fail code cursor :: rest) :
    readFullOrEof reader buf filled =
      (.error (.device code), buf, { reader with pos := cursor, reads := rest }) := by
  rw [readFullOrEof_pass, fillPass, if_pos hroom]
  simp only [Reader.read, hplan]

/-- A short read, and what becomes of the buffer and of the plan with it. -/
theorem readFullOrEof_short (hroom : filled < buf.length) (hpos : reader.pos < reader.data.length)
    (hplan : reader.reads = .short n :: rest) (hbs : bs = slice reader.data reader.pos
      (min (buf.length - filled) (n + 1))) :
    readFullOrEof reader buf filled =
      readFullOrEof { reader with pos := reader.pos + bs.length, reads := rest }
        (splice buf filled bs) (filled + bs.length) := by
  subst hbs
  apply readFullOrEof_bytes hroom
  · intro hempty
    have past := slice_eq_nil (by omega) hempty
    omega
  · simp only [Reader.read, hplan, Reader.serve]

theorem readFullOrEof_short_eof (hroom : filled < buf.length)
    (hpos : reader.data.length ≤ reader.pos) (hplan : reader.reads = .short n :: rest) :
    readFullOrEof reader buf filled = (.ok (), buf, { reader with reads := rest }) := by
  have hempty : ∀ want, reader.serve want = [] := by
    intro want
    rw [Reader.serve, slice, List.drop_eq_nil_of_le hpos, List.take_nil]
  apply readFullOrEof_eof hroom
  simp only [Reader.read, hplan, hempty, List.length_nil, Nat.add_zero]

theorem slice_to_end {data : Bytes} {pos k : Nat} (h : data.length ≤ pos + k) :
    slice data pos k = data.drop pos :=
  List.take_of_length_le (by rw [List.length_drop]; omega)

/-- A delivery, and what the reads after it deliver. -/
theorem slice_delivered (data : Bytes) (pos step later : Nat) :
    slice data pos step ++ slice data (pos + (slice data pos step).length) later =
      slice data pos (step + later) := by
  by_cases hstep : pos + step ≤ data.length
  · rw [slice_length_of_le hstep, slice_add]
  · -- the delivery was the last
    have hnone : slice data (pos + (slice data pos step).length) later = [] := by
      rw [List.eq_nil_iff_length_eq_zero, slice_length, slice_length]
      omega
    rw [hnone, List.append_nil, slice_to_end (by omega), slice_to_end (by omega)]

end

/-! ## A schedule -/

section

variable {size room n code cursor : Nat} {plan served rest : List ReadStep} {step : ReadStep}

/-- With an answer that is no failure the schedule goes on behind it. -/
theorem failsBehind_cons (hstep : ∀ code cursor, step ≠ .fail code cursor) :
    FailsBehind size room (step :: plan) (step :: served) code cursor rest ↔
      plan = served ++ .fail code cursor :: rest ∧
      (∀ code cursor, ReadStep.fail code cursor ∉ served) ∧
      (∀ n, step = .short n → 0 < size) ∧
      (∀ front n back, served = front ++ .short n :: back → granted (step :: front) < size) ∧
      min (granted (step :: served)) size < room := by
  constructor
  · rintro ⟨hplan, first, not_eof, not_full⟩
    refine ⟨(List.cons.inj hplan).2, ?_, ?_, ?_, not_full⟩
    · intro code cursor hmem
      exact first code cursor (List.mem_cons_of_mem _ hmem)
    · intro n heq
      exact not_eof [] n served (by rw [heq, List.nil_append])
    · intro front n back heq
      exact not_eof (step :: front) n back (by rw [heq, List.cons_append])
  · rintro ⟨hplan, first, some_left, not_eof, not_full⟩
    refine ⟨by rw [hplan, List.cons_append], ?_, ?_, not_full⟩
    · intro code cursor hmem
      rcases List.mem_cons.mp hmem with h | h
      · exact hstep code cursor h.symm
      · exact first code cursor h
    · intro front n back heq
      cases front with
      | nil => exact some_left n (List.cons.inj heq).1
      | cons step' front =>
          obtain ⟨rfl, htail⟩ := List.cons.inj heq
          exact not_eof front n back htail

theorem failsBehind_interrupted :
    FailsBehind size room (.interrupted :: plan) (.interrupted :: served) code cursor rest ↔
      FailsBehind size room plan served code cursor rest := by
  rw [failsBehind_cons (by simp)]
  constructor
  · rintro ⟨hplan, first, -, not_eof, not_full⟩
    exact ⟨hplan, first, not_eof, not_full⟩
  · rintro ⟨hplan, first, not_eof, not_full⟩
    exact ⟨hplan, first, by simp, not_eof, not_full⟩

/-- Past a short read there is less left, and less room. -/
theorem failsBehind_short :
    FailsBehind size room (.short n :: plan) (.short n :: served) code cursor rest ↔
      0 < size ∧ FailsBehind (size - min (min room (n + 1)) size)
        (room - min (min room (n + 1)) size) plan served code cursor rest := by
  rw [failsBehind_cons (by simp)]
  simp only [granted]
  constructor
  · rintro ⟨hplan, first, some_left, not_eof, not_full⟩
    refine ⟨some_left n rfl, hplan, first, ?_, by omega⟩
    intro front m back heq
    have hfront := not_eof front m back heq
    omega
  · rintro ⟨hsize, hplan, first, not_eof, not_full⟩
    refine ⟨hplan, first, fun _ _ => hsize, ?_, by omega⟩
    intro front m back heq
    have hfront := not_eof front m back heq
    omega

/-- Reading on into the buffer from `filled`, the reader fails behind the answers `served`. -/
def FailsFrom (reader : Reader) (buf : Bytes) (filled : Nat) (served : List ReadStep)
    (code cursor : Nat) (rest : List ReadStep) : Prop :=
  FailsBehind (reader.data.length - reader.pos) (buf.length - filled) reader.reads served code
    cursor rest

variable {reader : Reader} {buf bs : Bytes} {filled : Nat}

theorem failsFrom_interrupted (hplan : reader.reads = .interrupted :: plan) :
    FailsFrom reader buf filled (.interrupted :: served) code cursor rest ↔
      FailsFrom { reader with reads := plan } buf filled served code cursor rest := by
  unfold FailsFrom
  rw [hplan, failsBehind_interrupted]

/-- A delivery is read from what is left, into the room there is. -/
theorem failsFrom_short (hroom : filled < buf.length) (hplan : reader.reads = .short n :: plan)
    (hbs : bs = slice reader.data reader.pos (min (buf.length - filled) (n + 1))) :
    FailsFrom reader buf filled (.short n :: served) code cursor rest ↔
      reader.pos < reader.data.length ∧
        FailsFrom { reader with pos := reader.pos + bs.length, reads := plan }
          (splice buf filled bs) (filled + bs.length) served code cursor rest := by
  have hlen : bs.length = min (min (buf.length - filled) (n + 1))
      (reader.data.length - reader.pos) := by rw [hbs, slice_length]
  have hfull : (splice buf filled bs).length = buf.length := splice_length (by omega)
  unfold FailsFrom
  rw [hplan, failsBehind_short, hfull, Nat.sub_add_eq, Nat.sub_add_eq, hlen, Nat.sub_pos_iff_lt]

theorem failsFrom_fail (hroom : filled < buf.length)
    (hplan : reader.reads = .fail code cursor :: plan) :
    FailsFrom reader buf filled [] code cursor plan := by
  refine ⟨hplan, fun _ _ => List.not_mem_nil, ?_, ?_⟩
  · intro front n back heq
    cases front with
    | nil => cases heq
    | cons => cases heq
  · simp only [granted]
    omega

end

/-! ## The whole of it -/

section

variable {reader : Reader} {buf : Bytes} {filled code cursor : Nat} {served rest : List ReadStep}

theorem Reader.read_seeks (reader : Reader) (want : Nat) :
    (reader.read want).2.seeks = reader.seeks := by
  unfold Reader.read
  split <;> rfl

theorem readFullOrEof_seeks (reader : Reader) (buf : Bytes) (filled : Nat) :
    (readFullOrEof reader buf filled).2.2.seeks = reader.seeks := by
  fun_induction readFullOrEof reader buf filled with
  | case1 reader buf filled _ reader' hread =>
      simpa [hread] using reader.read_seeks (buf.length - filled)
  | case2 reader buf filled _ bs reader' hread _ ih =>
      rw [ih]
      simpa [hread] using reader.read_seeks (buf.length - filled)
  | case3 reader buf filled _ reader' hread ih =>
      rw [ih]
      simpa [hread] using reader.read_seeks (buf.length - filled)
  | case4 reader buf filled _ e reader' hread =>
      simpa [hread] using reader.read_seeks (buf.length - filled)
  | case5 => rfl

/-- With no hard error in the plan the buffer has what there is. -/
theorem readFullOrEof_clean (hroom : filled ≤ buf.length)
    (clean : ∀ code cursor, ReadStep.fail code cursor ∉ reader.reads) :
    ∃ reader', readFullOrEof reader buf filled = (.ok (),
      splice buf filled (slice reader.data reader.pos (buf.length - filled)), reader') := by
  rcases readFullOrEof_outcome reader hroom with
    ⟨reader', -, heq⟩ | ⟨e, buf', reader', failed, -, heq⟩
  · exact ⟨reader', heq⟩
  · exfalso
    rcases failed with ⟨steps, hsteps, code, cursor, hmem⟩ | ⟨steps, hsteps, code, cursor, hmem⟩
    · exact clean code cursor (hsteps ▸ List.mem_append_left _ hmem)
    · -- no seek is called
      have hseeks := readFullOrEof_seeks reader buf filled
      rw [heq] at hseeks
      have hnil : steps = [] := by
        have hlen := congrArg List.length (hsteps.trans (congrArg (steps ++ ·) hseeks))
        rw [List.length_append] at hlen
        exact List.length_eq_zero_iff.mp (by omega)
      rw [hnil] at hmem
      cases hmem

/-- A hard error in time is returned, over the bytes delivered so far. -/
theorem readFullOrEof_failed (hroom : filled ≤ buf.length)
    (h : FailsFrom reader buf filled served code cursor rest) :
    readFullOrEof reader buf filled = (.error (.device code),
      splice buf filled (slice reader.data reader.pos (granted served)),
      { reader with pos := cursor, reads := rest }) := by
  induction served generalizing reader buf filled with
  | nil =>
      have hlt := h.not_full
      rw [readFullOrEof_fail (by simp only [granted] at hlt; omega) h.plan_eq]
      simp [granted, splice]
  | cons step served ih =>
      have not_full := h.not_full
      have hlt : filled < buf.length := by omega
      obtain ⟨plan, hplan⟩ : ∃ plan, reader.reads = step :: plan := ⟨_, h.plan_eq⟩
      cases step with
      | short n =>
          obtain ⟨hpos, hrest⟩ := (failsFrom_short hlt hplan rfl).mp h
          simp only [granted] at not_full ⊢
          -- as there is room left, the answer was not cut short by it
          have hbs : slice reader.data reader.pos (min (buf.length - filled) (n + 1)) =
              slice reader.data reader.pos (n + 1) := by
            by_cases hn : n + 1 ≤ buf.length - filled
            · rw [Nat.min_eq_right hn]
            · rw [slice_to_end (by omega), slice_to_end (by omega)]
          have hlen := slice_length reader.data reader.pos (n + 1)
          have hfull : (splice buf filled (slice reader.data reader.pos (n + 1))).length =
              buf.length := splice_length (by omega)
          rw [hbs] at hrest
          rw [readFullOrEof_short hlt hpos hplan hbs.symm, ih (by omega) hrest,
            splice_splice_adjacent (by omega), slice_delivered]
      | interrupted =>
          rw [readFullOrEof_interrupted hlt hplan]
          exact ih hroom ((failsFrom_interrupted hplan).mp h)
      | fail code' cursor' =>
          exact absurd List.mem_cons_self (h.first code' cursor')

/-- Unless a hard error is in time, the buffer has what there is. -/
theorem readFullOrEof_filled (hroom : filled ≤ buf.length)
    (h : ∀ served code cursor rest, ¬ FailsFrom reader buf filled served code cursor rest) :
    ∃ reader', readFullOrEof reader buf filled = (.ok (),
      splice buf filled (slice reader.data reader.pos (buf.length - filled)), reader') := by
  induction hplan : reader.reads generalizing reader buf filled with
  | nil =>
      refine readFullOrEof_clean hroom ?_
      intro code cursor hmem
      rw [hplan] at hmem
      cases hmem
  | cons step plan ih =>
      by_cases hlt : filled < buf.length
      swap
      · refine ⟨reader, ?_⟩
        rw [readFullOrEof_full (by omega), show buf.length - filled = 0 by omega]
        simp [splice]
      cases step with
      | short n =>
          by_cases hpos : reader.pos < reader.data.length
          swap
          · refine ⟨{ reader with reads := plan }, ?_⟩
            rw [readFullOrEof_short_eof hlt (by omega) hplan, slice_to_end (by omega),
              List.drop_eq_nil_of_le (by omega)]
            simp [splice]
          obtain ⟨bs, hbs⟩ : ∃ bs, bs = slice reader.data reader.pos
            (min (buf.length - filled) (n + 1)) := ⟨_, rfl⟩
          have hlen : bs.length = min (min (buf.length - filled) (n + 1))
              (reader.data.length - reader.pos) := by rw [hbs, slice_length]
          have hfull : (splice buf filled bs).length = buf.length := splice_length (by omega)
          obtain ⟨reader', heq⟩ := @ih { reader with pos := reader.pos + bs.length, reads := plan }
            (splice buf filled bs) (filled + bs.length) (by omega)
            (fun served code cursor rest hfails => h (.short n :: served) code cursor rest
              ((failsFrom_short hlt hplan hbs).mpr ⟨hpos, hfails⟩)) rfl
          refine ⟨reader', ?_⟩
          rw [readFullOrEof_short hlt hpos hplan hbs, heq, hfull, hbs]
          simp only [splice_slice_continue hroom (Nat.min_le_left _ _)]
      | interrupted =>
          obtain ⟨reader', heq⟩ := @ih { reader with reads := plan } buf filled hroom
            (fun served code cursor rest hfails => h (.interrupted :: served) code cursor rest
              ((failsFrom_interrupted hplan).mpr hfails)) rfl
          exact ⟨reader', (readFullOrEof_interrupted hlt hplan).trans heq⟩
      | fail code cursor => exact absurd (failsFrom_fail hlt hplan) (h [] code cursor plan)

/-- An answer other than the last uses up some of the plan or of the room. -/
theorem fillPass_again {s s' : Reader × Bytes × Nat} (hroom : s.2.2 ≤ s.2.1.length)
    (h : fillPass s = .again s') : s'.2.2 ≤ s'.2.1.length ∧
      s'.1.reads.length + (s'.2.1.length - s'.2.2) < s.1.reads.length + (s.2.1.length - s.2.2) := by
  obtain ⟨reader, buf, filled⟩ := s
  simp only at hroom ⊢
  unfold fillPass at h
  split at h
  · rcases hread : reader.read (buf.length - filled) with ⟨reply, reader'⟩
    rw [hread] at h
    cases reply with
    | bytes bs =>
        simp only at h
        split at h
        · cases h
        · next hne =>
            obtain rfl := Pass.again.inj h
            have less := Reader.read_bytes_lt hread hne
            have hle := Reader.read_length_le hread
            have hfull : (splice buf filled bs).length = buf.length := splice_length (by omega)
            simp only [hfull]
            omega
    | interrupted =>
        obtain rfl := Pass.again.inj h
        have less := Reader.read_interrupted_lt hread
        exact ⟨hroom, by simp only; omega⟩
    | failed e => cases h
  · cases h

/-- The loop of `read_full_or_eof` returns. -/
theorem fill_loop {fuel : Nat} (hfuel : reader.reads.length + buf.length < fuel) :
    runLoop fillPass fuel (reader, buf, 0) = some (readFullOrEof reader buf 0) := by
  refine @runLoop_eq _ _ fillPass (fun s => s.2.2 ≤ s.2.1.length)
    (fun s => s.1.reads.length + (s.2.1.length - s.2.2))
    (fun s => readFullOrEof s.1 s.2.1 s.2.2) ?_ ?_ fuel (reader, buf, 0) (Nat.zero_le _) hfuel
  · intro s r _ hpass
    rw [readFullOrEof_pass, hpass]
  · intro s s' hroom hpass
    obtain ⟨hroom', less⟩ := fillPass_again hroom hpass
    exact ⟨hroom', by rw [readFullOrEof_pass, hpass], less⟩

theorem splice_start (bytes buf : Bytes) : splice buf 0 bytes = filledBuffer bytes buf := by
  simp [splice, filledBuffer]

end

/-- `read_full_or_eof` fills the buffer from whatever reader, however it is fragmented. -/
theorem readFullOrEof_schedule (reader : Reader) (buf : Bytes) :
    FillsWhateverSchedule reader buf := by
  have hsize : reader.remaining.length = reader.data.length - reader.pos := List.length_drop
  have hbuf : ∀ k, splice buf 0 (slice reader.data reader.pos k) =
      filledBuffer (reader.remaining.take k) buf := fun k => splice_start _ _
  refine ⟨?_, ?_, ?_, ?_⟩
  · intro clean
    rw [← hbuf]
    exact readFullOrEof_clean (Nat.zero_le _) clean
  · intro h
    rw [← hbuf]
    refine readFullOrEof_filled (Nat.zero_le _) ?_
    rw [hsize] at h
    exact h
  · intro served code cursor rest h
    rw [← hbuf]
    rw [hsize] at h
    exact readFullOrEof_failed (Nat.zero_le _) h
  · intro fuel hfuel
    exact fill_loop hfuel

end FileVault
