import Nvscope.Lib.Layout

/-!
# ioctl structures of the driver (`nvidia_rm.h`)
-/

namespace Nvscope

open Lib

def nvMaxDevices : Nat := 32

def maxAttachedGpus : Nat := 32

def maxActiveDevices : Nat := 256

def invalidId : UInt32 := 0xffffffff

def cmdGpuGetAttachedIds : UInt32 := 0x201

def cmdGpuGetActiveDeviceIds : UInt32 := 0x288

/-- `struct nvfix_nvos54_parameters`; `params` is a user pointer. -/
structure Nvos54Parameters where
  hClient : UInt32
  hObject : UInt32
  cmd : UInt32
  reserved0 : UInt32
  params : UInt64
  paramsSize : UInt32
  status : Int32
  deriving DecidableEq

structure NvPciInfo where
  domain : UInt32
  bus : UInt8
  slot : UInt8
  function : UInt8
  reserved0 : UInt8
  vendorId : UInt16
  deviceId : UInt16
  deriving DecidableEq

structure CardInfo where
  valid : UInt8
  reserved0 : List.Vector UInt8 3
  pciInfo : NvPciInfo
  gpuId : UInt32
  interruptLine : UInt16
  reserved1 : List.Vector UInt8 2
  regAddress : UInt64
  regSize : UInt64
  fbAddress : UInt64
  fbSize : UInt64
  minorNumber : UInt32
  devName : List.Vector UInt8 10
  reserved2 : List.Vector UInt8 2
  deriving DecidableEq

structure ActiveDevice where
  gpuId : UInt32
  gpuInstanceId : UInt32
  computeInstanceId : UInt32
  deriving DecidableEq

structure ActiveDeviceIdsParams where
  numDevices : UInt32
  devices : List.Vector ActiveDevice maxActiveDevices

/-! ## Layouts -/

namespace Layouts

def i32 : Layout Int32 :=
  Layout.u32.iso ⟨fun u => ⟨u⟩, Int32.toUInt32, fun _ => rfl, fun _ => rfl⟩

def nvos54Parameters : Layout Nvos54Parameters :=
  (Layout.u32.prod (Layout.u32.prod (Layout.u32.prod (Layout.u32.prod
    (Layout.u64.prod (Layout.u32.prod i32)))))).iso
    ⟨fun (a, b, c, d, e, f, g) => ⟨a, b, c, d, e, f, g⟩,
      fun r => (r.hClient, r.hObject, r.cmd, r.reserved0, r.params, r.paramsSize, r.status),
      fun _ => rfl, fun _ => rfl⟩

def nvPciInfo : Layout NvPciInfo :=
  (Layout.u32.prod (Layout.u8.prod (Layout.u8.prod (Layout.u8.prod (Layout.u8.prod
    (Layout.u16.prod Layout.u16)))))).iso
    ⟨fun (a, b, c, d, e, f, g) => ⟨a, b, c, d, e, f, g⟩,
      fun r => (r.domain, r.bus, r.slot, r.function, r.reserved0, r.vendorId, r.deviceId),
      fun _ => rfl, fun _ => rfl⟩

def cardInfo : Layout CardInfo :=
  (Layout.u8.prod ((Layout.u8.array 3).prod (nvPciInfo.prod (Layout.u32.prod (Layout.u16.prod
    ((Layout.u8.array 2).prod (Layout.u64.prod (Layout.u64.prod (Layout.u64.prod (Layout.u64.prod
      (Layout.u32.prod ((Layout.u8.array 10).prod (Layout.u8.array 2))))))))))))).iso
    ⟨fun (a, b, c, d, e, f, g, h, i, j, k, l, m) => ⟨a, b, c, d, e, f, g, h, i, j, k, l, m⟩,
      fun r => (r.valid, r.reserved0, r.pciInfo, r.gpuId, r.interruptLine, r.reserved1, r.regAddress,
        r.regSize, r.fbAddress, r.fbSize, r.minorNumber, r.devName, r.reserved2),
      fun _ => rfl, fun _ => rfl⟩

def cards : Layout (List.Vector CardInfo nvMaxDevices) :=
  cardInfo.array nvMaxDevices

def activeDevice : Layout ActiveDevice :=
  (Layout.u32.prod (Layout.u32.prod Layout.u32)).iso
    ⟨fun (a, b, c) => ⟨a, b, c⟩, fun r => (r.gpuId, r.gpuInstanceId, r.computeInstanceId),
      fun _ => rfl, fun _ => rfl⟩

def attachedIds : Layout (List.Vector UInt32 maxAttachedGpus) :=
  Layout.u32.array maxAttachedGpus

def activeDeviceIdsParams : Layout ActiveDeviceIdsParams :=
  (Layout.u32.prod (activeDevice.array maxActiveDevices)).iso
    ⟨fun (a, b) => ⟨a, b⟩, fun r => (r.numDevices, r.devices), fun _ => rfl, fun _ => rfl⟩

/-- The static assertions of the header, and the sizes the `paramsSize` checks compare with. -/
theorem sizes : nvos54Parameters.size = 32 ∧ cardInfo.size = 72 ∧ cards.size = 2304 ∧
    attachedIds.size = 128 ∧ activeDeviceIdsParams.size = 3076 := by
  decide

end Layouts

/-! ## Requests -/

/-- `_IOWR` of the x86-64 Linux headers. -/
def iowr (type nr size : Nat) : UInt64 :=
  UInt64.ofNat (3 * 2 ^ 30 + size * 2 ^ 16 + type * 2 ^ 8 + nr)

def rmControlRequest : UInt64 :=
  iowr 'F'.toNat 0x2A Layouts.nvos54Parameters.size

def cardInfoRequest : UInt64 :=
  iowr 'F'.toNat 200 Layouts.cards.size

def requestIsRmControl (request : UInt64) : Bool :=
  request == rmControlRequest

def requestIsCardInfo (request : UInt64) : Bool :=
  request == cardInfoRequest

theorem requestIsRmControl_of_cardInfo {request : UInt64} (h : requestIsRmControl request = true) :
    requestIsCardInfo request = false := by
  have hne : (rmControlRequest == cardInfoRequest) = false := by decide
  have he : request = rmControlRequest := by simpa [requestIsRmControl] using h
  rw [he]
  exact hne

end Nvscope
