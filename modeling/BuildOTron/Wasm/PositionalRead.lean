import BuildOTron.Lib.Machine
import BuildOTron.Lib.Outcome
import Mathlib.Data.List.TakeDrop

/-! `read_exact_at` of the two database handles. The loop around `pread` moves on in its
buffer and stays where it is in the file, so every call after a short one reads the same
bytes again. -/
namespace BuildOTron.WasmFrontend
open Transition

/-- What a descriptor reads from: no offset beyond an `off_t`. -/
structure File where
  bytes : List UInt8
  bounded : bytes.length < 0x8000000000000000

def slice (bytes : List UInt8) (start len : Nat) : List UInt8 := (bytes.drop start).take len

/-- `file_offs as i64`. -/
def preadOffset (fileOffs : UInt64) : Int := fileOffs.toInt64.toInt

/-- The locals of `FdVfsHandle::read_exact_at`; `remaining` is the buffer from `filled` on. -/
structure ReadLoop where
  buf : List UInt8
  filled : Nat
  totalRead : Nat
  toRead : Nat
  fileOffs : UInt64
  panicked : Bool

namespace ReadLoop

def start (buf : List UInt8) (offset : UInt64) : ReadLoop := ⟨buf, 0, 0, buf.length, offset, false⟩

def remaining (s : ReadLoop) : Nat := s.buf.length - s.filled

/-- Past the loop, which returns `Ok(())`. -/
def returned (s : ReadLoop) : Prop := s.panicked = false ∧ s.toRead ≤ s.totalRead

end ReadLoop

def overwrite (buf : List UInt8) (i : Nat) (bytes : List UInt8) : List UInt8 :=
  buf.take i ++ bytes ++ buf.drop (i + bytes.length)

/-- One turn of the loop; a label is what `pread` returns. -/
def fdReads (file : File) : Machine ReadLoop Int where
  step s nRead :=
    if s.panicked = false ∧ s.totalRead < s.toRead then
      if nRead ≤ 0 then some { s with panicked := true }
      else some { s with
        buf := overwrite s.buf s.filled (slice file.bytes (preadOffset s.fileOffs).toNat nRead.toNat)
        filled := s.filled + nRead.toNat
        totalRead := s.totalRead + nRead.toNat }
    else none

/-- Between one byte and all that is asked for, of the file at the offset passed. -/
structure Delivers (file : File) (s : ReadLoop) (nRead : Int) : Prop where
  positive : 1 ≤ nRead
  requested : nRead ≤ s.remaining
  within : 0 ≤ preadOffset s.fileOffs ∧ preadOffset s.fileOffs + nRead ≤ file.bytes.length

/-- `InMemVfsHandle::read_exact_at`; `usize` has 32 bits there. -/
def inMemReadExactAt (bytes : List UInt8) (bufLen : Nat) (offset : UInt64) :
    Outcome String (List UInt8) :=
  let start := offset.toUInt32.toNat
  if start ≤ bytes.length ∧ bufLen ≤ bytes.length - start then .ok (slice bytes start bufLen)
  else .panic

/-- Every call's bytes, read at `offset`, are those of the place in the file that they
are written for. -/
def Repeats (bytes : List UInt8) (offset : Nat) : Nat → List Int → Prop
  | _, [] => True
  | done, nRead :: reads => slice bytes offset nRead.toNat = slice bytes (offset + done) nRead.toNat ∧
      Repeats bytes offset (done + nRead.toNat) reads

section Slices
variable {bytes : List UInt8}

theorem slice_add (start first second : Nat) : slice bytes start (first + second) =
    slice bytes start first ++ slice bytes (start + first) second := by
  rw [slice, slice, slice, List.take_add, List.drop_drop]

theorem slice_length (within : start + len ≤ bytes.length) : (slice bytes start len).length = len := by
  rw [slice, List.length_take, List.length_drop]
  omega

/-- A part read right so far stays right with a chunk that is right. -/
theorem append_eq_slice {part chunk : List UInt8} (long : chunk.length = len)
    (within : start + part.length + len ≤ bytes.length) :
    part ++ chunk = slice bytes start (part.length + len) ↔
      part = slice bytes start part.length ∧ chunk = slice bytes (start + part.length) len := by
  rw [slice_add]
  refine ⟨fun same => List.append_inj same ?_, fun both => ?_⟩
  · rw [slice_length (by omega)]
  · rw [← both.1, ← both.2]

end Slices

theorem preadOffset_eq {file : File} {offset : UInt64} (within : offset.toNat ≤ file.bytes.length) :
    preadOffset offset = offset.toNat := by
  have bounded := file.bounded
  have positive : 2 * offset.toBitVec.toNat < 2 ^ 64 := by
    have same : offset.toBitVec.toNat = offset.toNat := rfl
    omega
  exact BitVec.toInt_eq_toNat_of_lt positive

/-! ### The loop -/

/-- What the calls have put at the front of the buffer. -/
def written (bytes : List UInt8) (offset : Nat) (reads : List Int) : List UInt8 :=
  reads.flatMap fun nRead => slice bytes offset nRead.toNat

/-- The buffer holds `part` and, behind it, what it held before. -/
structure Filled (offset : UInt64) (buf part : List UInt8) (s : ReadLoop) : Prop where
  contents : s.buf = part ++ buf.drop part.length
  filled : s.filled = part.length
  totalRead : s.totalRead = part.length
  toRead : s.toRead = buf.length
  fileOffs : s.fileOffs = offset
  sound : s.panicked = false
  fits : part.length ≤ buf.length

variable {file : File} {offset : UInt64} {buf part : List UInt8} {s t : ReadLoop} {reads : List Int}

theorem Filled.remaining (filled : Filled offset buf part s) :
    s.remaining = buf.length - part.length := by
  have fits := filled.fits
  rw [ReadLoop.remaining, filled.contents, filled.filled, List.length_append, List.length_drop]
  omega

theorem overwrite_part (chunk : List UInt8) :
    overwrite (part ++ buf.drop part.length) part.length chunk =
      (part ++ chunk) ++ buf.drop (part ++ chunk).length := by
  simp [overwrite, List.drop_append]

/-- One call goes on behind the part that is there, with bytes read at `offset`. -/
theorem Filled.step (filled : Filled offset buf part s)
    (within : offset.toNat + buf.length ≤ file.bytes.length) (delivers : Delivers file s nRead)
    (stepped : (fdReads file).step s nRead = some t) :
    (slice file.bytes offset.toNat nRead.toNat).length = nRead.toNat ∧
      Filled offset buf (part ++ slice file.bytes offset.toNat nRead.toNat) t := by
  have positive := delivers.positive
  have requested := delivers.requested
  have inside := delivers.within.2
  have fits := filled.fits
  have place := preadOffset_eq (by omega : offset.toNat ≤ file.bytes.length)
  rw [filled.remaining] at requested
  rw [filled.fileOffs, place] at inside
  have long : (slice file.bytes offset.toNat nRead.toNat).length = nRead.toNat :=
    slice_length (by omega)
  refine ⟨long, ?_⟩
  have more : ¬ nRead ≤ 0 := by omega
  have room : part.length + (slice file.bytes offset.toNat nRead.toNat).length ≤ buf.length := by omega
  simp only [fdReads, more, if_false, Option.ite_none_right_eq_some, Option.some.injEq] at stepped
  obtain ⟨_, rfl⟩ := stepped
  refine ⟨?_, ?_, ?_, filled.toRead, filled.fileOffs, filled.sound, ?_⟩
  · simp only [filled.fileOffs, place, Int.toNat_natCast, filled.contents, filled.filled]
    exact overwrite_part _
  · simp only [filled.filled, List.length_append, long]
  · simp only [filled.totalRead, List.length_append, long]
  · rw [List.length_append]
    exact room

/-- A call can always be answered while bytes are missing. -/
theorem Filled.answerable (filled : Filled offset buf part s)
    (within : offset.toNat + buf.length ≤ file.bytes.length) (missing : s.totalRead < s.toRead) :
    Delivers file s 1 := by
  have place := preadOffset_eq (by omega : offset.toNat ≤ file.bytes.length)
  have total := filled.totalRead
  have target := filled.toRead
  refine ⟨by omega, ?_, ?_⟩
  · rw [filled.remaining]
    omega
  · rw [filled.fileOffs, place]
    omega

/-- Any number of calls: they have put their bytes behind one another, and there are at
most as many calls as bytes. -/
theorem Filled.run (filled : Filled offset buf part s)
    (within : offset.toNat + buf.length ≤ file.bytes.length)
    (delivers : (fdReads file).Guarded (Delivers file) s reads)
    (path : (fdReads file).run s reads = some t) :
    Filled offset buf (part ++ written file.bytes offset.toNat reads) t ∧
      reads.length ≤ (written file.bytes offset.toNat reads).length ∧
      ∀ nRead ∈ reads, (slice file.bytes offset.toNat nRead.toNat).length = nRead.toNat := by
  induction reads generalizing s part with
  | nil =>
    cases path
    exact ⟨by rwa [written, List.flatMap_nil, List.append_nil], Nat.le_refl 0, by simp⟩
  | cons nRead reads ih =>
    obtain ⟨u, stepped, rest⟩ := Machine.run_cons.mp path
    obtain ⟨long, next⟩ := filled.step within delivers.1 stepped
    obtain ⟨last, count, full⟩ := ih next (delivers.2 u stepped) rest
    have positive := delivers.1.positive
    rw [List.append_assoc] at last
    refine ⟨last, ?_, List.forall_mem_cons.mpr ⟨long, full⟩⟩
    rw [written, List.flatMap_cons, List.length_append, List.length_cons, long, ← written]
    omega

/-- The bytes are right exactly when every call's are. -/
theorem written_eq_slice {bytes : List UInt8} {start : Nat}
    (full : ∀ nRead ∈ reads, (slice bytes start nRead.toNat).length = nRead.toNat)
    (within : start + part.length + (written bytes start reads).length ≤ bytes.length)
    (right : part = slice bytes start part.length) :
    part ++ written bytes start reads =
        slice bytes start (part.length + (written bytes start reads).length) ↔
      Repeats bytes start part.length reads := by
  induction reads generalizing part with
  | nil => exact iff_of_true (by simpa [written] using right) trivial
  | cons nRead reads ih =>
    obtain ⟨long, fullRest⟩ := List.forall_mem_cons.mp full
    have split : written bytes start (nRead :: reads) =
        slice bytes start nRead.toNat ++ written bytes start reads := rfl
    rw [split, List.length_append, long] at within
    rw [split, ← List.append_assoc, List.length_append, ← Nat.add_assoc, ← List.length_append]
    have size : (part ++ slice bytes start nRead.toNat).length = part.length + nRead.toNat := by
      rw [List.length_append, long]
    have within' : start + (part ++ slice bytes start nRead.toNat).length +
        (written bytes start reads).length ≤ bytes.length := by omega
    have head : part ++ slice bytes start nRead.toNat =
        slice bytes start (part ++ slice bytes start nRead.toNat).length ↔
        part = slice bytes start part.length ∧
          slice bytes start nRead.toNat = slice bytes (start + part.length) nRead.toNat := by
      rw [size]
      exact append_eq_slice long (by omega)
    constructor
    · intro same
      have first := ((append_eq_slice rfl within').mp same).1
      have rest := (ih fullRest within' first).mp same
      rw [size] at rest
      exact ⟨(head.mp first).2, rest⟩
    · rintro ⟨chunk, rest⟩
      rw [← size] at rest
      exact (ih fullRest within' (head.mpr ⟨right, chunk⟩)).mpr rest

/-- `InMemVfsHandle` copies what is there. -/
theorem inMemReadExactAt_eq {bytes : List UInt8} {len : Nat} (small : bytes.length < 0x80000000)
    (within : offset.toNat + len ≤ bytes.length) :
    inMemReadExactAt bytes len offset = .ok (slice bytes offset.toNat len) := by
  have start : offset.toUInt32.toNat = offset.toNat := by
    rw [UInt64.toNat_toUInt32]
    omega
  simp only [inMemReadExactAt, start]
  rw [if_pos (by omega)]

theorem start_filled : Filled offset buf [] (.start buf offset) :=
  ⟨rfl, rfl, rfl, rfl, rfl, rfl, Nat.zero_le _⟩

/-- What the buffer holds once the loop has returned. -/
theorem returned_right_iff (within : offset.toNat + buf.length ≤ file.bytes.length)
    (delivered : (fdReads file).Guarded (Delivers file) (.start buf offset) reads)
    (path : (fdReads file).run (.start buf offset) reads = some s) (returned : s.returned) :
    s.buf = slice file.bytes offset.toNat buf.length ↔ Repeats file.bytes offset.toNat 0 reads := by
  obtain ⟨filled, count, full⟩ := start_filled.run within delivered path
  rw [List.nil_append] at filled
  have complete := returned.2
  rw [filled.totalRead, filled.toRead] at complete
  have whole : (written file.bytes offset.toNat reads).length = buf.length :=
    Nat.le_antisymm filled.fits complete
  have none : ([] : List UInt8) = slice file.bytes offset.toNat 0 := by simp [slice]
  have right := written_eq_slice full (by simpa [whole] using within) none
  simp only [List.nil_append, List.length_nil, Nat.zero_add, whole] at right
  rw [filled.contents, whole, List.drop_length, List.append_nil]
  exact right

/-! ### Whatever the kernel does -/

/-- The part of the file that is asked for is one byte over and over. -/
def OneByte (bytes : List UInt8) (start len : Nat) : Prop :=
  ∀ i < len, bytes[start + i]? = bytes[start]?

theorem slice_getElem? (bytes : List UInt8) (start len i : Nat) :
    (slice bytes start len)[i]? = if i < len then bytes[start + i]? else none := by
  rw [slice, List.getElem?_take, List.getElem?_drop]

/-- How many bytes the calls return. -/
def counted : List Int → Nat
  | [] => 0
  | nRead :: reads => nRead.toNat + counted reads

theorem OneByte.repeats {bytes : List UInt8} {start len done : Nat} (same : OneByte bytes start len)
    (fits : done + counted reads ≤ len) : Repeats bytes start done reads := by
  induction reads generalizing done with
  | nil => trivial
  | cons nRead reads ih =>
    rw [counted] at fits
    refine ⟨?_, ih (by omega)⟩
    apply List.ext_getElem?
    intro i
    rw [slice_getElem?, slice_getElem?]
    split
    · rw [same i (by omega), Nat.add_assoc, same (done + i) (by omega)]
    · rfl

/-- One byte at a time. -/
theorem Filled.singles (filled : Filled offset buf part s)
    (within : offset.toNat + buf.length ≤ file.bytes.length) (room : part.length + k ≤ buf.length) :
    (fdReads file).Guarded (Delivers file) s (List.replicate k 1) ∧
      ∃ t, (fdReads file).run s (List.replicate k 1) = some t := by
  induction k generalizing s part with
  | zero => exact ⟨trivial, s, rfl⟩
  | succ k ih =>
    have total := filled.totalRead
    have target := filled.toRead
    have missing : s.totalRead < s.toRead := by omega
    have delivers := filled.answerable within missing
    obtain ⟨t, stepped⟩ : ∃ t, (fdReads file).step s 1 = some t := by
      simp [fdReads, filled.sound, missing]
    obtain ⟨long, next⟩ := filled.step within delivers stepped
    have room' : (part ++ slice file.bytes offset.toNat (1 : Int).toNat).length + k ≤ buf.length := by
      rw [List.length_append, long]
      omega
    obtain ⟨guarded, u, path⟩ := ih next room'
    rw [List.replicate_succ, Machine.guarded_cons stepped]
    exact ⟨⟨delivers, guarded⟩, u, Machine.run_cons.mpr ⟨t, stepped, path⟩⟩

theorem Repeats.singles {bytes : List UInt8} {start done k : Nat}
    (repeats : Repeats bytes start done (List.replicate k 1)) :
    ∀ i < k, bytes[start + (done + i)]? = bytes[start]? := by
  induction k generalizing done with
  | zero => simp
  | succ k ih =>
    obtain ⟨first, rest⟩ := repeats
    intro i inside
    cases i with
    | zero =>
      have bytes := congrArg (·[0]?) first
      simpa [slice_getElem?] using bytes.symm
    | succ i =>
      have later := ih rest i (by omega)
      rwa [show done + (1 : Int).toNat + i = done + (i + 1) by simp; omega] at later

theorem written_length {bytes : List UInt8} {start : Nat}
    (full : ∀ nRead ∈ reads, (slice bytes start nRead.toNat).length = nRead.toNat) :
    (written bytes start reads).length = counted reads := by
  induction reads with
  | nil => rfl
  | cons nRead reads ih =>
    obtain ⟨long, fullRest⟩ := List.forall_mem_cons.mp full
    rw [written, List.flatMap_cons, List.length_append, long, ← written, ih fullRest, counted]

/-- Short reads never do harm only where the file repeats one byte. -/
theorem right_for_every_cut_iff (within : offset.toNat + buf.length ≤ file.bytes.length) :
    (∀ reads s, (fdReads file).Guarded (Delivers file) (.start buf offset) reads →
      (fdReads file).run (.start buf offset) reads = some s → s.returned →
      s.buf = slice file.bytes offset.toNat buf.length) ↔
    OneByte file.bytes offset.toNat buf.length := by
  constructor
  · intro right
    have initial : Filled offset buf [] (.start buf offset) := start_filled
    have room : ([] : List UInt8).length + buf.length ≤ buf.length := by simp
    obtain ⟨delivered, s, path⟩ := initial.singles within room
    obtain ⟨filled, count, _⟩ := start_filled.run within delivered path
    have returned : s.returned := by
      refine ⟨filled.sound, ?_⟩
      rw [filled.totalRead, filled.toRead, List.nil_append]
      rwa [List.length_replicate] at count
    have repeats := (returned_right_iff within delivered path returned).mp
      (right _ s delivered path returned)
    intro i inside
    have same := repeats.singles i inside
    rwa [Nat.zero_add] at same
  · intro same reads s delivered path returned
    refine (returned_right_iff within delivered path returned).mpr (same.repeats ?_)
    obtain ⟨filled, _, full⟩ := start_filled.run within delivered path
    have fits := filled.fits
    rw [List.nil_append, written_length full] at fits
    omega

/-- For every file, every buffer within it and every way the kernel cuts the read: the
loop ends after at most a call for each byte, and never otherwise than by returning;
the buffer then holds what it was asked for, and what the handle over the same bytes in
memory gives, exactly when every call's bytes repeat those at the offset. -/
theorem read_exact_at_iff (file : File) (offset : UInt64) (buf : List UInt8) (reads : List Int)
    (s : ReadLoop) (within : offset.toNat + buf.length ≤ file.bytes.length)
    (delivered : (fdReads file).Guarded (Delivers file) (.start buf offset) reads)
    (path : (fdReads file).run (.start buf offset) reads = some s) :
    reads.length ≤ buf.length ∧ (s.returned ∨ Delivers file s 1) ∧
      (s.returned → (s.buf = slice file.bytes offset.toNat buf.length ↔
        Repeats file.bytes offset.toNat 0 reads)) ∧
      (file.bytes.length < 0x80000000 → inMemReadExactAt file.bytes buf.length offset =
        .ok (slice file.bytes offset.toNat buf.length)) := by
  obtain ⟨filled, count, _⟩ := start_filled.run within delivered path
  rw [List.nil_append] at filled
  have fits := filled.fits
  refine ⟨by omega, ?_, returned_right_iff within delivered path,
    fun small => inMemReadExactAt_eq small within⟩
  by_cases missing : s.totalRead < s.toRead
  · exact .inr (filled.answerable within missing)
  · exact .inl ⟨filled.sound, Nat.le_of_not_lt missing⟩

/-- Four equal bytes, read in three calls. -/
def oneByteOver : File := ⟨[0, 5, 5, 5, 5, 6], by decide⟩

theorem cut_read_right : ∃ s, (fdReads oneByteOver).run (.start [0, 0, 0, 0] 1) [2, 1, 1] = some s ∧
    s.returned ∧ s.buf = [5, 5, 5, 5] ∧ Repeats oneByteOver.bytes 1 0 [2, 1, 1] ∧
      inMemReadExactAt oneByteOver.bytes 4 1 = .ok s.buf := by
  have first : (fdReads oneByteOver).step (.start [0, 0, 0, 0] 1) 2 =
    some ⟨[5, 5, 0, 0], 2, 2, 4, 1, false⟩ := rfl
  have second : (fdReads oneByteOver).step ⟨[5, 5, 0, 0], 2, 2, 4, 1, false⟩ 1 =
    some ⟨[5, 5, 5, 0], 3, 3, 4, 1, false⟩ := rfl
  have delivered : (fdReads oneByteOver).Guarded (Delivers oneByteOver) (.start [0, 0, 0, 0] 1) [2, 1, 1] := by
    rw [Machine.guarded_cons first, Machine.guarded_cons second]
    exact ⟨⟨by decide, by decide, by decide⟩, ⟨by decide, by decide, by decide⟩,
      ⟨by decide, by decide, by decide⟩, fun _ _ => trivial⟩
  obtain ⟨_, _, right, inMem⟩ :=
    read_exact_at_iff oneByteOver 1 [0, 0, 0, 0] [2, 1, 1] _ (by decide) delivered rfl
  refine ⟨_, rfl, ⟨rfl, by decide⟩, rfl, (right ⟨rfl, by decide⟩).mp rfl, inMem (by decide)⟩

def twoBytes : File := ⟨[1, 2], by decide⟩


/-- One byte, and one byte again: the second is the first once more. -/
theorem short_reads_repeat : ¬ ∀ (file : File) (offset : UInt64) (buf : List UInt8) (reads : List Int)
    (s : ReadLoop), offset.toNat + buf.length ≤ file.bytes.length →
    (fdReads file).Guarded (Delivers file) (.start buf offset) reads →
    (fdReads file).run (.start buf offset) reads = some s → s.returned →
    s.buf = slice file.bytes offset.toNat buf.length := by
  intro claim
  have first : (fdReads twoBytes).step (.start [0, 0] 0) 1 =
    some ⟨[1, 0], 1, 1, 2, 0, false⟩ := rfl
  have delivered : (fdReads twoBytes).Guarded (Delivers twoBytes) (.start [0, 0] 0) [1, 1] := by
    rw [Machine.guarded_cons first]
    refine ⟨⟨by decide, by decide, by decide⟩, ⟨by decide, by decide, by decide⟩, fun _ _ => trivial⟩
  have wrong := claim twoBytes 0 [0, 0] [1, 1] _ (by decide) delivered rfl ⟨rfl, by decide⟩
  contradiction

end BuildOTron.WasmFrontend
