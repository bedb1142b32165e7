import Mathlib

/-!
# DeviceAllocator/Camem — the allocator behind sleep mode

    my_malloc    reserve an address · record it in Python · allocate physical memory · map it
    sleep        unmap and free the physical memory, keep the address
    wake_up      allocate physical memory again · map it
    my_free      forget it in Python · unmap and free · give the address back

A region is an address range with a host cell `p_memHandle` for the handle of its physical memory.  The
driver refuses to unmap what is not mapped, and to map over a mapping; the C code prints the error and
goes on.  Every call is kept in a log with its result.
-/

namespace VllmAscend

/-! ## The driver -/

/-- A call of the driver. -/
inductive AclCall where
  | reserveMemAddress (dMem : ℕ)
  | mallocPhysical (memHandle : ℕ)
  | mapMem (dMem memHandle : ℕ)
  | unmapMem (dMem : ℕ)
  | freePhysical (memHandle : Option ℕ)
  | releaseMemAddress (dMem : ℕ)
  deriving DecidableEq

/-- The device, and the cells the C code allocates.  Physical memory is numbered in the order of its
allocation. -/
structure Device where
  reserved : Finset ℕ
  mapping : ℕ → Option ℕ
  held : Finset ℕ
  created : ℕ
  bytes : ℕ → List UInt8
  cells : Finset ℕ
  memHandle : ℕ → Option ℕ
  log : List (AclCall × Bool)

namespace Device

variable (dev : Device)

/-- The call is logged. -/
def call (c : AclCall) (ok : Bool) : Device := { dev with log := dev.log ++ [(c, ok)] }

/-- The address returned is the caller's to name. -/
def aclrtReserveMemAddress (dMem : ℕ) : Device :=
  { dev.call (.reserveMemAddress dMem) true with reserved := insert dMem dev.reserved }

/-- Physical memory, with its handle in the cell. -/
def aclrtMallocPhysical (pMemHandle : ℕ) : Device :=
  { dev.call (.mallocPhysical dev.created) true with
    held := insert dev.created dev.held
    created := dev.created + 1
    memHandle := Function.update dev.memHandle pMemHandle (some dev.created) }

def aclrtMapMem (dMem memHandle : ℕ) : Device :=
  let ok := decide (dMem ∈ dev.reserved ∧ dev.mapping dMem = none)
  { dev.call (.mapMem dMem memHandle) ok with
    mapping := if ok then Function.update dev.mapping dMem (some memHandle) else dev.mapping }

def aclrtUnmapMem (dMem : ℕ) : Device × Bool :=
  let ok := (dev.mapping dMem).isSome
  ({ dev.call (.unmapMem dMem) ok with mapping := Function.update dev.mapping dMem none }, ok)

def aclrtFreePhysical (memHandle : Option ℕ) : Device :=
  match memHandle with
  | some h => { dev.call (.freePhysical h) (decide (h ∈ dev.held)) with held := dev.held.erase h }
  | none => dev.call (.freePhysical none) false

def aclrtReleaseMemAddress (dMem : ℕ) : Device × Bool :=
  let ok := decide (dMem ∈ dev.reserved ∧ dev.mapping dMem = none)
  ({ dev.call (.releaseMemAddress dMem) ok with
    reserved := if ok then dev.reserved.erase dMem else dev.reserved }, ok)

/-- A copy from the device; from memory that is not mapped it fails and copies nothing. -/
def memcpyDeviceToHost (ptr : ℕ) : List UInt8 := (dev.mapping ptr).elim [] dev.bytes

/-- A copy to the device. -/
def memcpyHostToDevice (ptr : ℕ) (cpuBackup : List UInt8) : Device :=
  match dev.mapping ptr with
  | some h => { dev with bytes := Function.update dev.bytes h cpuBackup }
  | none => dev

end Device

/-! ## The C allocator -/

/-- `HandleType` -/
structure HandleType where
  device : ℕ
  alignedSize : ℕ
  dMem : ℕ
  pMemHandle : ℕ

def Device.createAndMap (dev : Device) (handle : HandleType) : Device :=
  let dev := dev.aclrtMallocPhysical handle.pMemHandle
  match dev.memHandle handle.pMemHandle with
  | some memHandle => dev.aclrtMapMem handle.dMem memHandle
  | none => dev

def Device.unmapAndRelease (dev : Device) (handle : HandleType) : Device :=
  let (dev, ok) := dev.aclrtUnmapMem handle.dMem
  if ok then dev.aclrtFreePhysical (dev.memHandle handle.pMemHandle) else dev

structure AllocationData where
  handle : HandleType
  tag : String
  cpuBackupTensor : Option (List UInt8)

structure CaMemAllocator where
  pointerToData : AList fun _ : ℕ => AllocationData
  currentTag : String
  device : Device

namespace CaMemAllocator

def defaultTag : String := "default"

variable (s : CaMemAllocator)

def pythonMallocCallback (handle : HandleType) : CaMemAllocator :=
  { s with pointerToData := s.pointerToData.insert handle.dMem ⟨handle, s.currentTag, none⟩ }

def pythonFreeCallback (ptr : ℕ) : Option (HandleType × CaMemAllocator) := do
  let data ← s.pointerToData.lookup ptr
  return (data.handle, { s with pointerToData := s.pointerToData.erase ptr })

/-- `my_malloc`, given the address that is reserved and the cell that is allocated. -/
def myMalloc (granularity size device dMem pMemHandle : ℕ) : CaMemAllocator :=
  let alignedSize := (size + granularity - 1) / granularity * granularity
  let dev := s.device.aclrtReserveMemAddress dMem
  let dev := { dev with cells := insert pMemHandle dev.cells }
  let handle : HandleType := ⟨device, alignedSize, dMem, pMemHandle⟩
  let s := { s with device := dev }.pythonMallocCallback handle
  { s with device := s.device.createAndMap handle }

def myFree (ptr : ℕ) : CaMemAllocator :=
  match s.pythonFreeCallback ptr with
  | none => s
  | some (handle, s) =>
    let dev := s.device.unmapAndRelease handle
    let (dev, ok) := dev.aclrtReleaseMemAddress handle.dMem
    let dev := if ok then { dev with cells := dev.cells.erase handle.pMemHandle } else dev
    { s with device := dev }

/-! ## Sleep and wake-up -/

/-- The round of the loop in `sleep` for one region. -/
def sleepRegion (offloadTags : List String) (ptr : ℕ) : CaMemAllocator :=
  match s.pointerToData.lookup ptr with
  | none => s
  | some data =>
    let handle := data.handle
    let data :=
      if data.tag ∈ offloadTags then
        { data with cpuBackupTensor := some (s.device.memcpyDeviceToHost ptr) }
      else data
    { s with
      pointerToData := s.pointerToData.insert ptr data
      device := s.device.unmapAndRelease handle }

def sleep (offloadTags : Option (List String)) : CaMemAllocator :=
  let offloadTags := offloadTags.getD [defaultTag]
  s.pointerToData.keys.foldl (fun s ptr => s.sleepRegion offloadTags ptr) s

/-- `tags is None or tag in tags` -/
def wakes (tags : Option (List String)) (tag : String) : Bool :=
  match tags with
  | none => true
  | some tags => tags.contains tag

/-- The round of the loop in `wake_up` for one region. -/
def wakeRegion (tags : Option (List String)) (ptr : ℕ) : CaMemAllocator :=
  match s.pointerToData.lookup ptr with
  | none => s
  | some data =>
    if wakes tags data.tag then
      let dev := s.device.createAndMap data.handle
      match data.cpuBackupTensor with
      | none => { s with device := dev }
      | some cpuBackup =>
        { s with
          pointerToData := s.pointerToData.insert ptr { data with cpuBackupTensor := none }
          device := dev.memcpyHostToDevice ptr cpuBackup }
    else s

def wakeUp (tags : Option (List String)) : CaMemAllocator :=
  s.pointerToData.keys.foldl (fun s ptr => s.wakeRegion tags ptr) s

/-- The sum of the sizes in the handles. -/
def getCurrentUsage : ℕ := (s.pointerToData.entries.map fun entry => entry.2.handle.alignedSize).sum

/-- The tag of a region is one that is woken up. -/
def IsWoken (tags : Option (List String)) (ptr : ℕ) : Prop :=
  ∃ data, s.pointerToData.lookup ptr = some data ∧ wakes tags data.tag

instance (tags : Option (List String)) (ptr : ℕ) : Decidable (s.IsWoken tags ptr) :=
  match h : s.pointerToData.lookup ptr with
  | none => isFalse fun ⟨_, hdata, _⟩ => nomatch h.symm.trans hdata
  | some data => decidable_of_iff (wakes tags data.tag)
      ⟨fun hwakes => ⟨data, h, hwakes⟩, fun ⟨_, hdata, hwakes⟩ => by
        cases h.symm.trans hdata
        exact hwakes⟩

end CaMemAllocator

/-! ## Runs -/

/-- What happens to the allocator.  A tensor is allocated inside `use_memory_pool(tag)`. -/
inductive MemoryEvent where
  | malloc (tag : String) (size device dMem pMemHandle : ℕ)
  | free (ptr : ℕ)
  | sleep (offloadTags : Option (List String))
  | wakeUp (tags : Option (List String))

/-- The allocator and its history: the regions put to sleep and not woken up since, and the tags that
are awake, which all are until the first sleep. -/
structure SleepSystem where
  allocator : CaMemAllocator
  asleep : Finset ℕ
  awakeTags : String → Bool

namespace SleepSystem

/-- Nothing is allocated; the memory may hold anything. -/
def init (bytes : ℕ → List UInt8) : SleepSystem where
  allocator :=
    { pointerToData := ∅
      currentTag := CaMemAllocator.defaultTag
      device := ⟨∅, fun _ => none, ∅, 0, bytes, ∅, fun _ => none, []⟩ }
  asleep := ∅
  awakeTags := fun _ => true

def step (granularity : ℕ) (s : SleepSystem) : MemoryEvent → Except Empty SleepSystem
  | .malloc tag size device dMem pMemHandle => .ok { s with
      allocator := { { s.allocator with currentTag := tag }.myMalloc granularity size device dMem
        pMemHandle with currentTag := s.allocator.currentTag } }
  | .free ptr => .ok { s with
      allocator := s.allocator.myFree ptr
      asleep := s.asleep.erase ptr }
  | .sleep offloadTags => .ok {
      allocator := s.allocator.sleep offloadTags
      asleep := s.allocator.pointerToData.keys.toFinset
      awakeTags := fun _ => false }
  | .wakeUp tags => .ok {
      allocator := s.allocator.wakeUp tags
      asleep := s.asleep.filter fun ptr => ¬ s.allocator.IsWoken tags ptr
      awakeTags := fun tag => s.awakeTags tag || CaMemAllocator.wakes tags tag }

/-- Addresses and cells are new, only what is allocated is freed, nothing is put to sleep twice, and only
tags that are not awake are woken up. -/
def Allowed (s : SleepSystem) : MemoryEvent → Prop
  | .malloc _ _ _ dMem pMemHandle =>
    dMem ∉ s.allocator.device.reserved ∧ pMemHandle ∉ s.allocator.device.cells
  | .free ptr => ptr ∈ s.allocator.pointerToData
  | .sleep _ => s.asleep = ∅
  | .wakeUp tags => ∀ tag, CaMemAllocator.wakes tags tag → s.awakeTags tag = false

end SleepSystem

end VllmAscend
