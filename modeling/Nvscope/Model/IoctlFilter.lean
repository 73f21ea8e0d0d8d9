import Nvscope.Model.Env
import Nvscope.Model.NvidiaRm
import Nvscope.Model.ProcFilter

/-!
# The ioctl filter (`ioctl_filter.c`)
-/

namespace Nvscope

open Lib

/-- `g_allowed_gpu_ids[0..g_allowed_gpu_id_count)`: the opaque gpu ids learned so far. -/
structure LearnedIds where
  ids : List UInt32
  count_le : ids.length ≤ maxGpus
  deriving DecidableEq

def LearnedIds.empty : LearnedIds := ⟨[], Nat.zero_le _⟩

/-! ## Learning and hiding cards -/

def allowedContainsMinor (allowed : Option AllowedGpus) (minor : UInt32) : Bool :=
  match allowed with
  | none => false
  | some allowed =>
      if !allowed.valid then false
      else allowed.gpus.any fun gpu =>
        gpu.present && decide (0 ≤ gpu.deviceMinor) && gpu.deviceMinor.toUInt32 == minor

def gpuIdIsAllowed (learned : LearnedIds) (gpuId : UInt32) : Bool :=
  learned.ids.any (· == gpuId)

def rememberAllowedGpuId (learned : LearnedIds) (gpuId : UInt32) : LearnedIds :=
  if h : gpuId = invalidId ∨ gpuIdIsAllowed learned gpuId ∨ learned.ids.length ≥ maxGpus then learned
  else { ids := learned.ids ++ [gpuId], count_le := by simp; omega }

def recordCardInfoGpuIds (allowed : Option AllowedGpus) (cards : List CardInfo) (learned : LearnedIds) :
    LearnedIds :=
  match allowed with
  | none => learned
  | some a =>
      if !a.valid then learned
      else cards.foldl (fun learned card =>
        if card.valid != 0 && allowedContainsMinor allowed card.minorNumber then
          rememberAllowedGpuId learned card.gpuId
        else learned) learned

def hideCard (allowed : Option AllowedGpus) (card : CardInfo) : CardInfo :=
  if card.valid != 0 && !allowedContainsMinor allowed card.minorNumber then { card with valid := 0 }
  else card

/-- `nvfix_filter_card_info`: the memory at `cards` after the call. -/
def filterCardInfo (allowed : Option AllowedGpus) (mem : List UInt8) : List UInt8 :=
  match allowed with
  | none => mem
  | some a =>
      if !a.valid then mem
      else Layouts.cards.put ((Layouts.cards.get mem).map (hideCard allowed)) mem

/-! ## RM control responses -/

def gpuIdArrayFilterEnabled (cfg : Option Config) (allowed : Option AllowedGpus) (result : Int)
    (rm : Nvos54Parameters) : Bool :=
  match cfg, allowed with
  | some cfg, some allowed =>
      cfg.ioctlFilterEnabled && allowed.valid && result == 0 && rm.status == 0 && rm.params != 0
  | _, _ => false

/-- The first loop of `nvfix_filter_gpu_id_array`; `kept` is the scratch array of `NVFIX_MAX_GPUS`. -/
def keepGpuIds (learned : LearnedIds) : List UInt32 → List UInt32 → List UInt32
  | [], kept => kept
  | gpuId :: gpuIds, kept =>
      if gpuId = invalidId then kept
      else if gpuIdIsAllowed learned gpuId && decide (kept.length < maxGpus) then
        keepGpuIds learned gpuIds (kept ++ [gpuId])
      else keepGpuIds learned gpuIds kept

/-- `nvfix_filter_gpu_id_array`: the array after the call and the return value. -/
def filterGpuIdArray {n : Nat} (learned : LearnedIds) (gpuIds : List.Vector UInt32 n) :
    List.Vector UInt32 n × Nat :=
  if n = 0 || learned.ids.length = 0 then (gpuIds, 0)
  else
    let kept := keepGpuIds learned gpuIds.toList []
    if kept.length = 0 then (gpuIds, 0)
    else (List.Vector.ofFn fun i => kept.getD i invalidId, kept.length)

/-- The loop of `nvfix_filter_active_devices` over the first `count` devices. -/
def keepDevices (learned : LearnedIds) : List ActiveDevice → List ActiveDevice → List ActiveDevice
  | [], kept => kept
  | device :: devices, kept =>
      if gpuIdIsAllowed learned device.gpuId then keepDevices learned devices (kept ++ [device])
      else keepDevices learned devices kept

def filterActiveDevices (learned : LearnedIds) (params : ActiveDeviceIdsParams) : ActiveDeviceIdsParams :=
  if learned.ids.length = 0 then params
  else
    let count := if params.numDevices.toNat > maxActiveDevices then maxActiveDevices
      else params.numDevices.toNat
    let kept := keepDevices learned (params.devices.toList.take count) []
    if kept.length = 0 then params
    else
      { numDevices := UInt32.ofNat kept.length
        devices := List.Vector.ofFn fun i => kept.getD i (params.devices.get i) }

/-- `nvfix_filter_rm_control`: the memory at `rm->params` after the call. -/
def filterRmControl (cfg : Option Config) (allowed : Option AllowedGpus) (rm : Nvos54Parameters)
    (result : Int) (learned : LearnedIds) (params : List UInt8) : List UInt8 :=
  if !gpuIdArrayFilterEnabled cfg allowed result rm then params
  else if rm.cmd = cmdGpuGetAttachedIds ∧ rm.paramsSize.toNat ≥ Layouts.attachedIds.size then
    Layouts.attachedIds.put (filterGpuIdArray learned (Layouts.attachedIds.get params)).1 params
  else if rm.cmd = cmdGpuGetActiveDeviceIds ∧
      rm.paramsSize.toNat ≥ Layouts.activeDeviceIdsParams.size then
    Layouts.activeDeviceIdsParams.put
      (filterActiveDevices learned (Layouts.activeDeviceIdsParams.get params)) params
  else params

/-- The memory an ioctl argument gives access to: the bytes at `arg`, and, for an RM control call, the
bytes at the address its `params` field holds, which are other bytes. -/
structure IoctlArg where
  mem : List UInt8
  params : List UInt8
  deriving DecidableEq

/-- `nvfix_ioctl_filter_after`: the learned ids and the argument memory after the call. -/
def ioctlFilterAfter (cfg : Option Config) (allowed : Option AllowedGpus) (request : UInt64)
    (arg : Option IoctlArg) (result : Int) (learned : LearnedIds) : LearnedIds × Option IoctlArg :=
  match arg with
  | none => (learned, none)
  | some arg =>
      if result ≠ 0 then (learned, some arg)
      else if requestIsCardInfo request then
        let cards := Layouts.cards.get arg.mem
        let learned := recordCardInfoGpuIds allowed cards.toList learned
        if (cfg.map Config.ioctlFilterEnabled).getD false then
          (learned, some { arg with mem := filterCardInfo allowed arg.mem })
        else (learned, some arg)
      else if requestIsRmControl request then
        let rm := Layouts.nvos54Parameters.get arg.mem
        (learned, some { arg with params := filterRmControl cfg allowed rm result learned arg.params })
      else (learned, some arg)

end Nvscope
