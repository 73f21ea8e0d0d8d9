import Nvscope.Lib.Mutex
import Nvscope.Model.InPlace

/-!
# The ioctl filter under its lock (`ioctl_filter.c`)

`g_ioctl_filter_lock` is held while ids are learned and while a response is compared with them. The three loops
under it take their rounds one by one; what a thread does to the memory of its own argument comes before it
takes the lock or after it has released it.
-/

namespace Nvscope

open Lib

/-- `nvfix_remember_allowed_gpu_id_locked`, with the accesses to the table. -/
def rememberAllowedGpuIdAt (table : IdTable) (gpuId : UInt32) : Option IdTable :=
  if gpuId = invalidId then some table
  else
    (gpuIdIsAllowedAt table gpuId).map fun known =>
      if known then table
      else if h : table.count < maxGpus then table.offer h gpuId true
      else table

/-- A call of `nvfix_ioctl_filter_after`, with what its two scratch arrays happen to hold. The `params` of an RM
control call point to as many bytes as it says, or more. -/
structure IoctlOp where
  cfg : Option Config
  allowed : Option AllowedGpus
  request : UInt64
  arg : Option IoctlArg
  result : Int
  keptIds : List.Vector UInt32 maxGpus
  keptDevices : List.Vector ActiveDevice maxActiveDevices
  fits : ∀ a, arg = some a → requestIsRmControl request = true →
    (Layouts.nvos54Parameters.get a.mem).paramsSize.toNat ≤ a.params.length

/-- The state of a loop under the lock. The two filters look at the number of learned ids first. -/
inductive IoctlWork where
  | record (allowed : AllowedGpus) (cards : List CardInfo) (i : Nat)
  | gpuIdArray (gpuIds : List UInt32) (kept : List UInt32)
  | keepGpuIds (gpuIds : List UInt32) (st : Nat × List UInt32 × Nat)
  | activeDevices (numDevices : UInt32) (devices kept : List ActiveDevice)
  | keepDevices (devices : List ActiveDevice) (count : Nat) (st : Nat × List ActiveDevice × Nat)

/-- What is left when the lock is released: a scratch array and its `kept_count`, or nothing. -/
inductive IoctlKept where
  | nothing
  | gpuIds (kept : List UInt32) (keptCount : Nat)
  | devices (kept : List ActiveDevice) (keptCount : Nat)

def recordRound (allowed : AllowedGpus) (cards : List CardInfo) (i : Nat) (table : IdTable) :
    Option (Round (IoctlWork × IdTable) (IoctlKept × IdTable)) :=
  if i < cards.length then
    cards[i]?.bind fun card =>
      if card.valid != 0 && allowedContainsMinor (some allowed) card.minorNumber then
        (rememberAllowedGpuIdAt table card.gpuId).map fun table => .next (.record allowed cards (i + 1), table)
      else some (.next (.record allowed cards (i + 1), table))
  else some (.done (.nothing, table))

def ioctlRound : IoctlWork → IdTable → Option (Round (IoctlWork × IdTable) (IoctlKept × IdTable))
  | .record allowed cards i, table => recordRound allowed cards i table
  | .gpuIdArray gpuIds kept, table =>
      if table.count = 0 then some (.done (.nothing, table))
      else some (.next (.keepGpuIds gpuIds (0, kept, 0), table))
  | .keepGpuIds gpuIds st, table =>
      (keepRound (· == invalidId) (gpuIdIsAllowedAt table) (fun used => decide (used < maxGpus)) gpuIds
        gpuIds.length st).map
          (Round.map (fun st => (.keepGpuIds gpuIds st, table)) fun r => (.gpuIds r.1 r.2, table))
  | .activeDevices numDevices devices kept, table =>
      if table.count = 0 then some (.done (.nothing, table))
      else
        let count := if numDevices.toNat > maxActiveDevices then maxActiveDevices else numDevices.toNat
        some (.next (.keepDevices devices count (0, kept, 0), table))
  | .keepDevices devices count st, table =>
      (keepRound (fun _ => false) (fun device => gpuIdIsAllowedAt table device.gpuId) (fun _ => true) devices
        count st).map
          (Round.map (fun st => (.keepDevices devices count st, table)) fun r => (.devices r.1 r.2, table))

/-- Where the call takes the lock, and with which loop; the other calls return without it. -/
def IoctlOp.enter (op : IoctlOp) : IoctlWork ⊕ IoctlKept :=
  match op.arg with
  | none => .inr .nothing
  | some arg =>
      if op.result ≠ 0 then .inr .nothing
      else if requestIsCardInfo op.request then
        match op.allowed with
        | none => .inr .nothing
        | some allowed =>
            if !allowed.valid then .inr .nothing
            else .inl (.record allowed (Layouts.cards.get arg.mem).toList 0)
      else if requestIsRmControl op.request then
        let rm := Layouts.nvos54Parameters.get arg.mem
        if !gpuIdArrayFilterEnabled op.cfg op.allowed op.result rm then .inr .nothing
        else if rm.cmd = cmdGpuGetAttachedIds ∧ rm.paramsSize.toNat ≥ Layouts.attachedIds.size then
          .inl (.gpuIdArray (Layouts.attachedIds.get arg.params).toList op.keptIds.toList)
        else if rm.cmd = cmdGpuGetActiveDeviceIds ∧
            rm.paramsSize.toNat ≥ Layouts.activeDeviceIdsParams.size then
          let params := Layouts.activeDeviceIdsParams.get arg.params
          .inl (.activeDevices params.numDevices params.devices.toList op.keptDevices.toList)
        else .inr .nothing
      else .inr .nothing

def ioctlFilter : Guarded IdTable IoctlOp IoctlWork IoctlKept where
  enter := IoctlOp.enter
  round _ st := ioctlRound st.1 st.2

/-! ## Without the lock -/

/-- The second loop of `nvfix_filter_gpu_id_array`, on the array in the parameters. -/
def writeGpuIds (kept : List UInt32) (keptCount : Nat) (params : List UInt8) : Option (List UInt8) :=
  if keptCount = 0 then some params
  else
    (loop (fillRound invalidId kept keptCount maxAttachedGpus) (maxAttachedGpus + 1)
      (0, (Layouts.attachedIds.get params).toList)).bind fun gpuIds =>
        if h : gpuIds.length = maxAttachedGpus then some (Layouts.attachedIds.put ⟨gpuIds, h⟩ params) else none

/-- The end of `nvfix_filter_active_devices`, on the structure in the parameters. -/
def writeDevices (kept : List ActiveDevice) (keptCount : Nat) (params : List UInt8) : Option (List UInt8) :=
  if keptCount = 0 then some params
  else
    (loadFront kept keptCount).bind fun kept =>
      (storeMany (Layouts.activeDeviceIdsParams.get params).devices.toList 0 kept).bind fun devices =>
        if h : devices.length = maxActiveDevices then
          some (Layouts.activeDeviceIdsParams.put ⟨UInt32.ofNat keptCount, ⟨devices, h⟩⟩ params)
        else none

/-- The parameters of an RM control call once what was kept is written back. -/
def IoctlKept.write (params : List UInt8) : IoctlKept → Option (List UInt8)
  | .nothing => some params
  | .gpuIds kept keptCount => writeGpuIds kept keptCount params
  | .devices kept keptCount => writeDevices kept keptCount params

/-- The memory of the argument when the call returns; the outer `none` is a fault. -/
def IoctlOp.return (op : IoctlOp) (kept : IoctlKept) : Option (Option IoctlArg) :=
  match op.arg with
  | none => some none
  | some arg =>
      let hides := op.result = 0 && requestIsCardInfo op.request && (op.cfg.map Config.ioctlFilterEnabled).getD false
      (kept.write arg.params).map fun params =>
        some { mem := if hides then filterCardInfo op.allowed arg.mem else arg.mem, params := params }

end Nvscope
