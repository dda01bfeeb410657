import FileVault.Core.Error
import FileVault.Lib.Slice

/-!
# The backing reader

The crate is generic over `R: Read + Seek`. What a run of it can observe of such
a reader is the finite list of answers its calls get, so a reader is modelled by
the bytes it serves, its cursor, and the answers still to come: short reads,
`Interrupted` errors, hard errors. When the plan runs out the reader behaves as
`Cursor<Vec<u8>>` does, which is the reader with the empty plan. A failing call
may leave the cursor anywhere.
-/

namespace FileVault

open Lib

/-- How one call of `read` is answered, other than in full. -/
inductive ReadStep
  | short (n : Nat)
  | interrupted
  | fail (code : Nat) (cursor : Nat)
  deriving DecidableEq, Repr

/-- How one call of `seek` is answered. -/
inductive SeekStep
  | ok
  | fail (code : Nat) (cursor : Nat)
  deriving DecidableEq, Repr

/-- A `Read + Seek` source over fixed bytes. -/
structure Reader where
  data : Bytes
  pos : Nat
  reads : List ReadStep
  seeks : List SeekStep
  deriving DecidableEq, Repr

/-- `Cursor::new(data)`. -/
def Reader.cursor (data : Bytes) : Reader := ⟨data, 0, [], []⟩

/-- What `read` returns. -/
inductive ReadReply
  | bytes (bs : Bytes)
  | interrupted
  | failed (e : IoError)
  deriving DecidableEq, Repr

namespace Reader

/-- The next `n` bytes at the cursor, fewer at the end of the data. -/
def serve (r : Reader) (n : Nat) : Bytes := slice r.data r.pos n

/-- `read(&mut buf)` into a buffer of `want` bytes. A short read still delivers
at least one byte while there are any. -/
def read (r : Reader) (want : Nat) : ReadReply × Reader :=
  match r.reads with
  | [] => (.bytes (r.serve want), { r with pos := r.pos + (r.serve want).length })
  | .short n :: rest =>
      let bs := r.serve (min want (n + 1))
      (.bytes bs, { r with pos := r.pos + bs.length, reads := rest })
  | .interrupted :: rest => (.interrupted, { r with reads := rest })
  | .fail code cursor :: rest =>
      (.failed (.device code), { r with pos := cursor, reads := rest })

/-- `seek(SeekFrom::Start(target))`. -/
def seek (r : Reader) (target : Nat) : Except IoError Unit × Reader :=
  match r.seeks with
  | [] => (.ok (), { r with pos := target })
  | .ok :: rest => (.ok (), { r with pos := target, seeks := rest })
  | .fail code cursor :: rest =>
      (.error (.device code), { r with pos := cursor, seeks := rest })

end Reader

theorem Reader.serve_length_le (r : Reader) (n : Nat) : (r.serve n).length ≤ n := by
  unfold Reader.serve
  simp

/-- A `read` never delivers more bytes than it was offered room for. -/
theorem Reader.read_length_le {r r' : Reader} {want : Nat} {bs : Bytes}
    (h : r.read want = (.bytes bs, r')) : bs.length ≤ want := by
  unfold Reader.read at h
  split at h <;> simp only [Prod.mk.injEq, ReadReply.bytes.injEq, reduceCtorEq,
    false_and] at h
  · rw [← h.1]
    exact r.serve_length_le want
  · rw [← h.1]
    exact (r.serve_length_le _).trans (Nat.min_le_left _ _)

/-- Every answer uses up one step of the plan, and an empty plan stays empty. -/
theorem Reader.read_reads {r r' : Reader} {want : Nat} {reply : ReadReply}
    (h : r.read want = (reply, r')) : r'.reads = r.reads.tail := by
  unfold Reader.read at h
  split at h <;> rename_i hplan <;> simp only [Prod.mk.injEq] at h <;>
    simp [← h.2, hplan]

/-- The measure of a read loop goes down with every delivered byte. -/
theorem Reader.read_bytes_lt {r r' : Reader} {want : Nat} {bs : Bytes}
    (h : r.read want = (.bytes bs, r')) (hne : bs ≠ []) :
    r'.reads.length + (want - bs.length) < r.reads.length + want := by
  have hle := Reader.read_length_le h
  have hpos := List.length_pos_iff.mpr hne
  rw [Reader.read_reads h, List.length_tail]
  omega

/-- The measure of a read loop goes down with every interrupt. -/
theorem Reader.read_interrupted_lt {r r' : Reader} {want : Nat}
    (h : r.read want = (.interrupted, r')) : r'.reads.length < r.reads.length := by
  rw [Reader.read_reads h]
  cases hplan : r.reads with
  | nil => simp [Reader.read, hplan] at h
  | cons step rest => simp

end FileVault
