import BillCounter.Driver.BH1000
import BillCounter.Driver.P506

/-!
# Getting in step with the counter

The BH1000 and the P-506 send frames of a fixed length behind a start byte, and check nothing
else.  A call that reads any other byte drops it, so from wherever the driver comes in, it is
in step from the next start byte on that belongs to a frame; a start byte inside a frame does
it no harm.
-/

namespace BillCounter.Driver

open BillCounter.Lib.RawBytes

/-! ## A line of frames -/

/-- A frame of `size` bytes behind `stx`, with anything in it. -/
structure StxFrame (stx : Byte) (size : Nat) where
  val : Bytes size
  stx : val.val.head? = some stx

/-- What comes between the frames: bytes other than `stx`, and pauses. -/
structure Gap (stx : Byte) where
  val : Arrivals
  quiet : some stx ∉ val

/-- A gap, and frames with a gap behind each. -/
structure FramedLine (stx : Byte) (size : Nat) where
  start : Gap stx
  rest : List (StxFrame stx size × Gap stx)

variable {ρ δ : Type} {stx : Byte} {size : Nat}

/-- How the line arrives. -/
def FramedLine.arrivals (line : FramedLine stx size) : Arrivals :=
  line.start.val ++ line.rest.flatMap fun p => inTime p.1.val.val ++ p.2.val

/-- What one call after the other is to return: nothing for each byte or pause in a gap, and
what a frame decodes to once for each frame. -/
def FramedLine.returns (decoded : List Byte → δ) (line : FramedLine stx size) :
    List (Option δ) :=
  List.replicate line.start.val.length none ++
    line.rest.flatMap fun p =>
      some (decoded p.1.val.val) :: List.replicate p.2.val.length none

/-! ## Calls -/

/-- What `n` calls of `fInput` return, with the fields decoded by each that is `true`; and
what they leave on the line. -/
def inputs (fInput : ρ → Arrivals → Bool × ρ × Arrivals) (fields : ρ → δ) :
    Nat → ρ → Arrivals → List (Option δ) × Arrivals
  | 0, _, hSerial => ([], hSerial)
  | n + 1, pBC, hSerial =>
      let (ret, pBC, hSerial) := fInput pBC hSerial
      let (returned, hSerial) := inputs fInput fields n pBC hSerial
      ((if ret then some (fields pBC) else none) :: returned, hSerial)

/-- A driver whose calls take one byte that is not `stx`, one pause, or one frame. -/
structure ReadsFrames (fInput : ρ → Arrivals → Bool × ρ × Arrivals) (fields : ρ → δ)
    (stx : Byte) (size : Nat) (decoded : List Byte → δ) (Ready : ρ → Prop) : Prop where
  skips : ∀ pBC b line, Ready pBC → b ≠ some stx → fInput pBC (b :: line) = (false, pBC, line)
  takes : ∀ pBC (F : StxFrame stx size) line, Ready pBC →
    ∃ pBC', fInput pBC (inTime F.val.val ++ line) = (true, pBC', line) ∧ Ready pBC' ∧
      fields pBC' = decoded F.val.val

section ReadsFrames

variable {fInput : ρ → Arrivals → Bool × ρ × Arrivals} {fields : ρ → δ}
  {decoded : List Byte → δ} {Ready : ρ → Prop}
  (h : ReadsFrames fInput fields stx size decoded Ready) {pBC : ρ}
include h

/-- Calls in a gap return nothing, and leave the record as it is. -/
theorem inputs_gap (hready : Ready pBC) {gap : Arrivals} (hquiet : some stx ∉ gap) (n : Nat)
    (line : Arrivals) :
    inputs fInput fields (gap.length + n) pBC (gap ++ line) =
      (List.replicate gap.length none ++ (inputs fInput fields n pBC line).1,
        (inputs fInput fields n pBC line).2) := by
  induction gap with
  | nil => rw [List.length_nil, Nat.zero_add]; rfl
  | cons b gap ih =>
      rw [List.mem_cons, not_or] at hquiet
      have hskip := h.skips pBC b (gap ++ line) hready (Ne.symm hquiet.1)
      rw [List.length_cons, Nat.add_right_comm, inputs, List.cons_append, hskip]
      dsimp only
      rw [ih hquiet.2]
      rfl

/-- Over frames with gaps behind them, each call returns what it should. -/
theorem inputs_frames (hready : Ready pBC) (frames : List (StxFrame stx size × Gap stx)) :
    inputs fInput fields
        (frames.flatMap fun p =>
          some (decoded p.1.val.val) :: List.replicate p.2.val.length none).length pBC
        (frames.flatMap fun p => inTime p.1.val.val ++ p.2.val) =
      (frames.flatMap fun p =>
        some (decoded p.1.val.val) :: List.replicate p.2.val.length none, []) := by
  induction frames generalizing pBC with
  | nil => rfl
  | cons p frames ih =>
      obtain ⟨F, gap⟩ := p
      obtain ⟨pBC', htakes, hready', hfields⟩ := h.takes pBC F
        (gap.val ++ frames.flatMap fun p => inTime p.1.val.val ++ p.2.val) hready
      rw [List.flatMap_cons, List.flatMap_cons, List.append_assoc, List.cons_append,
        List.length_cons, List.length_append, List.length_replicate, inputs, htakes]
      dsimp only
      rw [inputs_gap h hready' gap.quiet, ih hready', hfields, if_pos rfl]

end ReadsFrames

/-- Calls return each frame once and in order, nothing else, and leave nothing on the line. -/
def Resynchronises (fInput : ρ → Arrivals → Bool × ρ × Arrivals) (fields : ρ → δ)
    (stx : Byte) (size : Nat) (decoded : List Byte → δ) (pBC : ρ) : Prop :=
  ∀ line : FramedLine stx size,
    inputs fInput fields (line.returns decoded).length pBC line.arrivals =
      (line.returns decoded, [])

theorem ReadsFrames.resynchronises {fInput : ρ → Arrivals → Bool × ρ × Arrivals}
    {fields : ρ → δ} {decoded : List Byte → δ} {Ready : ρ → Prop}
    (h : ReadsFrames fInput fields stx size decoded Ready) {pBC : ρ} (hready : Ready pBC) :
    Resynchronises fInput fields stx size decoded pBC := by
  intro line
  rw [FramedLine.returns, FramedLine.arrivals, List.length_append, List.length_replicate,
    inputs_gap h hready line.start.quiet, inputs_frames h hready]

/-! ## The two drivers -/

theorem readsFrames_bh1000 :
    ReadsFrames bcBH1000Input id bcBH1000Stx bcBH1000FrameSize bcBH1000Frame fun _ => True where
  skips pBC b line _ hb := by
    cases b with
    | none => rfl
    | some b =>
        have hne : b ≠ bcBH1000Stx := fun heq => hb (congrArg some heq)
        rw [bcBH1000Input, serialGetc]
        exact if_pos hne
  takes pBC F line _ := by
    obtain ⟨bs, hbs, hlen, hgets⟩ := frame_arrives F.val F.stx line
    refine ⟨bcBH1000Frame F.val.val, ?_, trivial, rfl⟩
    rw [hbs, bcBH1000Input, serialGetc_inTime]
    simp [bcBH1000FrameSize, hgets, hlen]

/-- The fields of a `BC_P506` that a frame is decoded to.  Nothing is decoded to
`pSubdisplay`. -/
def p506Fields (pP506 : BcP506) : BitVec 32 × Bytes 5 × (Fin 4 → BitVec 32) :=
  (pP506.xType, pP506.pDisplay, pP506.pCount)

/-- What a frame decodes to, in a driver that has just been created. -/
def p506Decoded (pFrame : List Byte) : BitVec 32 × Bytes 5 × (Fin 4 → BitVec 32) :=
  p506Fields (bcP506Frame (bcP506Create bcModelP506) pFrame)

/-- It is the same in any other. -/
theorem p506Fields_frame (pP506 : BcP506) (F : P506Frame) :
    p506Fields (bcP506Frame pP506 F.val.val) = p506Decoded F.val.val := by
  have hdisplay : (bcP506Frame pP506 F.val.val).pDisplay =
      (bcP506Frame (bcP506Create bcModelP506) F.val.val).pDisplay :=
    Bytes.ext ((displays_frame pP506 F).1.trans
      (displays_frame (bcP506Create bcModelP506) F).1.symm)
  rw [p506Decoded, p506Fields, p506Fields, hdisplay]
  rfl

theorem readsFrames_p506 :
    ReadsFrames bcP506Input p506Fields bcP506Stx bcP506FrameSize p506Decoded
      fun pP506 => pP506.xModel = bcModelP506 where
  skips pBC b line hmodel hb := by
    rw [bcP506Input, if_neg (not_not_intro hmodel)]
    cases b with
    | none => rfl
    | some b =>
        have hne : b ≠ bcP506Stx := fun heq => hb (congrArg some heq)
        exact if_pos hne
  takes pBC F line hmodel :=
    ⟨bcP506Frame pBC F.val.val, bcP506Input_frame hmodel ⟨F.val, F.stx⟩ line, hmodel,
      p506Fields_frame pBC ⟨F.val, F.stx⟩⟩

/-- Whatever is on the line between the frames, and in them, both drivers return each frame
once and in order, with the fields decoded from it. -/
theorem drivers_resynchronise :
    (∀ pBH1000, Resynchronises bcBH1000Input id bcBH1000Stx bcBH1000FrameSize bcBH1000Frame
      pBH1000) ∧
    ∀ pP506 : BcP506, Resynchronises bcP506Input p506Fields bcP506Stx bcP506FrameSize
      p506Decoded { pP506 with xModel := bcModelP506 } :=
  ⟨fun _ => readsFrames_bh1000.resynchronises trivial,
    fun _ => readsFrames_p506.resynchronises rfl⟩

end BillCounter.Driver
