import BillCounter.Crc16
import BillCounter.Lib.CString
import BillCounter.Lib.Layout

/-!
# The stored configuration of `config.c`

`CONFIG` is a record of 100 bytes, padding included, whose first member is the
check sum of the rest.  `CONFIG_save` keeps a copy of it in a flash page of its
own; `CONFIG_load` and `CONFIG_init` read it back.  The HAL flash routines are
outside the repository: each erase and each word program succeeds or fails as
`HalOutcomes` says.
-/

namespace BillCounter.Storage

open BillCounter.Crc16
open BillCounter.Lib.RawBytes
open BillCounter.Lib.CString

/-- `RET_VALUE`, as far as `config.c` uses it. -/
inductive RetValue
  | RET_OK
  | RET_ERROR
deriving DecidableEq, Repr

/-- `NET_CONFIG`, with the two bytes of padding before `bStatic`. -/
structure NetConfig where
  pMAC : Bytes 6
  padding : Bytes 2
  bStatic : BitVec 32
  xIPAddr : BitVec 32
  xNetmask : BitVec 32
  xGatewayIPAddr : BitVec 32
deriving DecidableEq

/-- `SERVER_CONFIG`, with the two bytes of padding at its end. -/
structure ServerConfig where
  xIPAddr : BitVec 32
  nPort : BitVec 16
  padding : Bytes 2
deriving DecidableEq

/-- `CONFIG`, with the two bytes of padding before `xNet`. -/
structure Config where
  nCRC : BitVec 16
  pPasswd : Bytes 32
  pSerialNumber : Bytes 32
  padding : Bytes 2
  xNet : NetConfig
  xServer : ServerConfig
deriving DecidableEq

/-- `sizeof(CONFIG)`. -/
def sizeofConfig : Nat := 100

/-! ## Layout -/

section Layouts

open BillCounter.Lib.Layout

/-- `uint16_t`. -/
def uint16 : BitVec 16 ≃ Bytes 2 := word 16 2 (by decide)

/-- `uint32_t`, and `int` as its bit pattern. -/
def uint32 : BitVec 32 ≃ Bytes 4 := word 32 4 (by decide)

def netConfigLayout : NetConfig ≃ Bytes 24 :=
  Equiv.trans
    { toFun := fun x => (x.pMAC, x.padding, x.bStatic, x.xIPAddr, x.xNetmask,
        x.xGatewayIPAddr)
      invFun := fun x => ⟨x.1, x.2.1, x.2.2.1, x.2.2.2.1, x.2.2.2.2.1, x.2.2.2.2.2⟩
      left_inv := fun _ => rfl
      right_inv := fun _ => rfl }
    (seq (array 6) (seq (array 2) (seq uint32 (seq uint32 (seq uint32 uint32)))))

def serverConfigLayout : ServerConfig ≃ Bytes 8 :=
  Equiv.trans
    { toFun := fun x => (x.xIPAddr, x.nPort, x.padding)
      invFun := fun x => ⟨x.1, x.2.1, x.2.2⟩
      left_inv := fun _ => rfl
      right_inv := fun _ => rfl }
    (seq uint32 (seq uint16 (array 2)))

/-- The members behind `nCRC`, in address order. -/
def bodyLayout : Bytes 32 × Bytes 32 × Bytes 2 × NetConfig × ServerConfig ≃ Bytes 98 :=
  seq (array 32) (seq (array 32) (seq (array 2) (seq netConfigLayout serverConfigLayout)))

def configLayout : Config ≃ Bytes sizeofConfig :=
  Equiv.trans
    { toFun := fun x => (x.nCRC, x.pPasswd, x.pSerialNumber, x.padding, x.xNet, x.xServer)
      invFun := fun x => ⟨x.1, x.2.1, x.2.2.1, x.2.2.2.1, x.2.2.2.2.1, x.2.2.2.2.2⟩
      left_inv := fun _ => rfl
      right_inv := fun _ => rfl }
    (seq uint16 bodyLayout)

end Layouts

/-- The bytes of a `CONFIG`. -/
def Config.bytes (c : Config) : List Byte := (configLayout c).val

@[simp] theorem Config.length_bytes (c : Config) : c.bytes.length = sizeofConfig :=
  (configLayout c).property

theorem Config.bytes_injective {c d : Config} (h : c.bytes = d.bytes) : c = d :=
  configLayout.injective (Bytes.ext h)

/-- The bytes `CRC16_calc` is given: everything behind `nCRC`. -/
def Config.body (c : Config) : List Byte :=
  (bodyLayout (c.pPasswd, c.pSerialNumber, c.padding, c.xNet, c.xServer)).val

theorem Config.bytes_eq (c : Config) : c.bytes = wordBytes 2 c.nCRC ++ c.body := rfl

theorem Config.drop_bytes (c : Config) : c.bytes.drop 2 = c.body := by
  rw [c.bytes_eq, List.drop_left' (length_wordBytes 2 c.nCRC)]

theorem Config.wordAt_take_bytes (c : Config) : wordAt 16 (c.bytes.take 2) = c.nCRC := by
  rw [c.bytes_eq, List.take_left' (length_wordBytes 2 c.nCRC),
    wordAt_wordBytes _ (by decide)]

/-- Every string of the right length is the bytes of some `CONFIG`. -/
def Config.ofBytes (bs : Bytes sizeofConfig) : Config := configLayout.symm bs

@[simp] theorem Config.bytes_ofBytes (bs : Bytes sizeofConfig) :
    (Config.ofBytes bs).bytes = bs.val := by
  rw [Config.bytes, Config.ofBytes, configLayout.apply_symm_apply]

/-- `xConfig` as the start-up code leaves it. -/
def zeroConfig : Config := .ofBytes (.replicate sizeofConfig 0)

/-! ## Flash -/

/-- The flash, and whether its controller is locked. -/
structure FlashState where
  memory : Memory
  locked : Bool

/-- Which of the HAL calls succeed: the page erase, and the `i`-th word
program. -/
structure HalOutcomes where
  erase : Bool
  program : Nat → Bool

/-- All of them succeed. -/
def HalOutcomes.ok : HalOutcomes := ⟨true, fun _ => true⟩

/-- `CONFIG_ADDRESS`. -/
def CONFIG_ADDRESS : Nat := 0x08030000

/-- `FLASH_PAGE_SIZE` of the part. -/
def FLASH_PAGE_SIZE : Nat := 0x800

/-- `HAL_FLASH_Program` of one word.  A word whose program fails stays as it
is. -/
def halFlashProgram (succeeds : Bool) (m : Memory) (a : Nat) (word : BitVec 32) :
    Memory :=
  if succeeds then write m a (wordBytes 4 word) else m

/-- The 100 bytes `pStoredConfig` points to. -/
def storedBytes (m : Memory) : List Byte := read m CONFIG_ADDRESS sizeofConfig

@[simp] theorem length_storedBytes (m : Memory) :
    (storedBytes m).length = sizeofConfig := length_read _ _ _

/-- `*pStoredConfig`. -/
def storedConfig (m : Memory) : Config := .ofBytes ⟨storedBytes m, length_storedBytes m⟩

/-! ## The functions of `config.c` -/

/-- The check sum `CONFIG_save` stores in `nCRC`. -/
def Config.crc (c : Config) : BitVec 16 := crc16Calc (c.bytes.drop 2)

/-- `CONFIG_setDefault`. -/
def configSetDefault (pConfig : Config) : RetValue × Config :=
  (.RET_OK,
    { pConfig with
      pPasswd := strcpy pConfig.pPasswd (literal "posudo")
      pSerialNumber := strcpy pConfig.pSerialNumber (literal "00000000")
      xNet := { pConfig.xNet with
        pMAC := ⟨[0x00, 0x40, 0x5c, 0x01, 0x02, 0x03], rfl⟩
        bStatic := 0
        xIPAddr := wordAt 32 [192, 168, 0, 200]
        xNetmask := wordAt 32 [255, 255, 255, 0]
        xGatewayIPAddr := wordAt 32 [192, 168, 0, 1] }
      xServer := { pConfig.xServer with
        xIPAddr := wordAt 32 [192, 168, 1, 1]
        nPort := 12004 } })

/-- `CONFIG_load`. -/
def configLoad (pConfig : Config) (f : FlashState) : RetValue × Config :=
  let pStoredConfig := storedConfig f.memory
  if pStoredConfig.crc ≠ pStoredConfig.nCRC then (.RET_ERROR, pConfig)
  else (.RET_OK, pStoredConfig)

/-- `pWord[i]`. -/
def Config.pWord (c : Config) (i : Nat) : BitVec 32 := wordAt 32 (slice c.bytes (i * 4) 4)

/-- The loop of `CONFIG_save`, up to word `n`. -/
def programWords (hal : HalOutcomes) (pConfig : Config) (m : Memory) (n : Nat) : Memory :=
  (List.range n).foldl
    (fun m i => halFlashProgram (hal.program i) m (CONFIG_ADDRESS + i * 4)
      (pConfig.pWord i)) m

/-- `CONFIG_save`. -/
def configSave (hal : HalOutcomes) (pConfig : Config) (f : FlashState) :
    RetValue × Config × FlashState :=
  let pConfig := { pConfig with nCRC := pConfig.crc }
  if pConfig.bytes = storedBytes f.memory then (.RET_OK, pConfig, f)
  else
    let f := { f with locked := false }
    if hal.erase = false then (.RET_ERROR, pConfig, f)
    else
      let m := fill f.memory CONFIG_ADDRESS FLASH_PAGE_SIZE 0xFF
      (.RET_OK, pConfig, ⟨programWords hal pConfig m ((sizeofConfig + 3) / 4), true⟩)

/-- `CONFIG_init`.  `malloc` is what `pvPortMalloc` returns: memory with some
content, or `NULL`. -/
def configInit (hal : HalOutcomes) (malloc : Option Config) (f : FlashState) :
    RetValue × FlashState :=
  let pStoredConfig := storedConfig f.memory
  if pStoredConfig.nCRC ≠ pStoredConfig.crc then
    match malloc with
    | some pConfig =>
        (.RET_OK, (configSave hal (configSetDefault pConfig).2 f).2.2)
    | none => (.RET_ERROR, f)
  else (.RET_OK, f)

end BillCounter.Storage
