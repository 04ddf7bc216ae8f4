import BillCounter.Driver.Dispatch
import BillCounter.Driver.KL1850
import BillCounter.Serial.Lifecycle
import Mathlib.Tactic.IntervalCases

/-!
# The table of counters

`bill_counter.c` has an entry for each model it supports, at the model's number.  The number
comes from four switches.  A model without an entry has no driver: `main` starts the shell
alone then, and hands it a null pointer.
-/

namespace BillCounter.Driver

open BillCounter.Lib.CString
open BillCounter.Lib.RawBytes
open BillCounter.Serial

/-! ## Entries -/

/-- What `fCreate` returns: a `BILL_COUNTER` whose `fInput` returns, or that of the KL1850. -/
inductive BcCreated
  | polled (pBC : BcInstance)
  | kl1850 (pKL1850 : BcKL1850)

/-- `BILL_COUNTER_INFO`.  `fInput` and `fGetMessage` are those of what `fCreate` makes. -/
structure BillCounterInfo where
  xModel : BitVec 32
  pName : List Byte
  xSTX : Byte
  ulFrameSize : Nat
  settings : SerialSettings
  fCreate : BitVec 32 → BcCreated

/-- `BC_MODEL_J305`. -/
def bcModelJ305 : BitVec 32 := 8

/-- `BC_MODEL_KL1850`. -/
def bcModelKL1850 : BitVec 32 := 10

/-- `BC_MODEL_BH1000`. -/
def bcModelBH1000 : BitVec 32 := 11

/-- The settings but for parity and speed are the same for all. -/
def counterSettings (xBaudrate : SerialBaudrate) (xParity : SerialParity) : SerialSettings where
  xBaudrate := xBaudrate
  xParity := xParity
  xStop := .SERIAL_STOP_BITS_1
  xData := .SERIAL_DATA_BITS_8

/-- `_xP506`. -/
def xP506 : BillCounterInfo where
  xModel := bcModelP506
  pName := literal "P-506"
  xSTX := bcP506Stx
  ulFrameSize := bcP506FrameSize
  settings := counterSettings .SERIAL_BAUDRATE_9600 .SERIAL_PARITY_NONE
  fCreate := fun xModel => .polled (.p506 (bcP506Create xModel))

/-- `_xJ305`. -/
def xJ305 : BillCounterInfo where
  xModel := bcModelJ305
  pName := literal "J-305"
  xSTX := bcJ305Stx
  ulFrameSize := bcJ305FrameSize
  settings := counterSettings .SERIAL_BAUDRATE_9600 .SERIAL_PARITY_NONE
  fCreate := fun _ => .polled (.j305 ⟨0⟩)

/-- `_xP16`. -/
def xP16 : BillCounterInfo where
  xModel := bcModelP16
  pName := literal "P16"
  xSTX := bcP16Stx1
  ulFrameSize := bcP16FrameSize1
  settings := counterSettings .SERIAL_BAUDRATE_9600 .SERIAL_PARITY_ODD
  fCreate := fun xModel => .polled (.p16 (bcP16Create xModel))

/-- `_xKL1850`. -/
def xKL1850 : BillCounterInfo where
  xModel := bcModelKL1850
  pName := literal "KL1850"
  xSTX := bcKL1850Stx
  ulFrameSize := bcKL1850FrameSize
  settings := counterSettings .SERIAL_BAUDRATE_57600 .SERIAL_PARITY_NONE
  fCreate := fun _ => .kl1850 ⟨0⟩

/-- `_xBH1000`. -/
def xBH1000 : BillCounterInfo where
  xModel := bcModelBH1000
  pName := literal "BH1000"
  xSTX := bcBH1000Stx
  ulFrameSize := bcBH1000FrameSize
  settings := counterSettings .SERIAL_BAUDRATE_115200 .SERIAL_PARITY_NONE
  fCreate := fun _ => .polled (.bh1000 ⟨0, 0⟩)

/-- `pBillCounterInfo`. -/
def pBillCounterInfo : List (Option BillCounterInfo) :=
  [none, none, none, none, none, none, some xP506, none, some xJ305, some xP16, some xKL1850,
    some xBH1000]

/-! ## Look-up -/

/-- `BC_getInstance`: `none` for `NULL`. -/
def bcGetInstance (ulModel : Nat) : Option BcCreated :=
  match pBillCounterInfo[ulModel]? with
  | some (some pInfo) => some (pInfo.fCreate pInfo.xModel)
  | _ => none

/-- The loop of `BC_GetModelList`, with the pointers stored so far. -/
def bcModelLoop (ulMaxCount : Nat) :
    List (Option BillCounterInfo) → List BillCounterInfo → List BillCounterInfo
  | [], pCounters => pCounters
  | p :: table, pCounters =>
      if ulMaxCount ≤ pCounters.length then pCounters
      else
        match p with
        | none => bcModelLoop ulMaxCount table pCounters
        | some pInfo => bcModelLoop ulMaxCount table (pCounters ++ [pInfo])

/-- `BC_GetModelList`: what it stores in `pCounters`, as many as it returns. -/
def bcGetModelList (ulMaxCount : Nat) : List BillCounterInfo :=
  bcModelLoop ulMaxCount pBillCounterInfo []

/-- `SYS_getModelID`, of the switches that are `GPIO_PIN_RESET`. -/
def sysGetModelID (sw1 sw2 sw3 sw4 : Bool) : BitVec 8 :=
  let xModel : BitVec 8 := 0
  let xModel := if sw1 then xModel ||| 0x08 else xModel
  let xModel := if sw2 then xModel ||| 0x04 else xModel
  let xModel := if sw3 then xModel ||| 0x02 else xModel
  if sw4 then xModel ||| 0x01 else xModel

/-- A task `main` starts, with its argument. -/
inductive MainTask
  | svrif
  | cntif (pBC : BcCreated)
  | shell (pBC : Option BcCreated)

/-- `main`, behind `BC_getInstance`. -/
def mainTasks (pBC : Option BcCreated) : List MainTask :=
  match pBC with
  | some pBC => [.svrif, .cntif pBC, .shell (some pBC)]
  | none => [.shell none]

/-! ## What is found -/

/-- The list has the entries of the table in order, as many as there is room for. -/
theorem bcModelLoop_eq (ulMaxCount : Nat) (table : List (Option BillCounterInfo))
    (pCounters : List BillCounterInfo) (h : pCounters.length ≤ ulMaxCount) :
    bcModelLoop ulMaxCount table pCounters =
      (pCounters ++ table.filterMap id).take ulMaxCount := by
  induction table generalizing pCounters with
  | nil =>
      rw [bcModelLoop, List.filterMap_nil, List.append_nil, List.take_of_length_le h]
  | cons p table ih =>
      unfold bcModelLoop
      by_cases hfull : ulMaxCount ≤ pCounters.length
      · rw [if_pos hfull, List.take_append_of_le_length hfull, List.take_of_length_le h]
      · rw [if_neg hfull]
        cases p with
        | none => exact ih pCounters h
        | some pInfo =>
            have hroom : (pCounters ++ [pInfo]).length ≤ ulMaxCount := by
              rw [List.length_append, List.length_singleton]
              omega
            dsimp only
            rw [ih _ hroom, List.append_assoc]
            rfl

/-- An entry of the table stands at the number of its model. -/
theorem xModel_of_entry {i : Nat} {pInfo : BillCounterInfo}
    (h : pBillCounterInfo[i]? = some (some pInfo)) : pInfo.xModel.toNat = i := by
  have hlt : i < 12 := by
    by_contra hge
    rw [List.getElem?_eq_none (by simpa [pBillCounterInfo] using hge)] at h
    cases h
  interval_cases i <;> cases h <;> rfl

end BillCounter.Driver
