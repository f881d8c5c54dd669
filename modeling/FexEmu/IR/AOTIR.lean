import FexEmu.Data.OrderedMap
import FexEmu.Data.LittleEndian
/-!
# The AOT IR cache file

What `AppendAOTIRCaptureCache` and `FinalizeAOTIRCache` write, and how `LoadAOTIRCache` and `Find` read it.
-/
namespace FexEmu.IR.AOTIR

open ByteMemory

abbrev Byte := BitVec 8

/-! ## Records -/

/-- `MapCount` is the length of the map. -/
structure RegisterAllocationData where
  spillSlotCount : BitVec 32
  isShared : Bool
  map : List Byte
  mapCount_lt : map.length < 2 ^ 32

/-- `DataSize` and `ListSize` are the lengths. -/
structure IRListView where
  data : List Byte
  list : List Byte

/-- The arguments of `AppendAOTIRCaptureCache`, without `Start`, which it does not use. -/
structure Append where
  guestRIP : BitVec 64
  length : BitVec 64
  hash : BitVec 64
  irList : IRListView
  raData : RegisterAllocationData

/-- `sizeof(RegisterAllocationData)`, which is packed, and its map. -/
def raSize (nodeCount : Nat) : Nat := 9 + nodeCount

/-- In the file `IsShared` is always set. -/
def RegisterAllocationData.serialize (r : RegisterAllocationData) : List Byte :=
  bytes 4 r.spillSlotCount.toNat ++ (bytes 4 r.map.length ++ (bytes 1 1 ++ r.map))

def FLAG_Shared : Nat := 2

def IRListView.serialize (v : IRListView) : List Byte :=
  bytes 8 0 ++ (bytes 8 0 ++ (bytes 8 v.data.length ++ (bytes 8 v.list.length ++ (bytes 8 FLAG_Shared ++ (v.data ++ v.list)))))

def Append.record (a : Append) : List Byte :=
  bytes 8 a.hash.toNat ++ (bytes 8 a.length.toNat ++ (a.raData.serialize ++ a.irList.serialize))

/-! ## Writing -/

/-- The bytes of `Stream`, and `Index`. -/
structure AOTIRCaptureCacheEntry where
  stream : List Byte
  index : OrderedMap Nat Nat

def appendAOTIRCaptureCache (entry : AOTIRCaptureCacheEntry) (a : Append) : AOTIRCaptureCacheEntry :=
  let index := entry.index.emplace a.guestRIP.toNat entry.stream.length
  if entry.index.find? a.guestRIP.toNat = none then ⟨entry.stream ++ a.record, index⟩ else ⟨entry.stream, index⟩

def AOTIR_VERSION : Nat := 4

/-- `COOKIE_VERSION("FEXI", AOTIR_VERSION)` -/
def AOTIR_COOKIE : Nat := AOTIR_VERSION * 2 ^ 56 + 0x49 * 2 ^ 24 + 0x58 * 2 ^ 16 + 0x45 * 2 ^ 8 + 0x46

def opened : AOTIRCaptureCacheEntry := ⟨bytes 8 AOTIR_COOKIE, OrderedMap.empty⟩

/-- The entry of a file id after its appends; before the first it has no stream. -/
def capture : List Append → Option AOTIRCaptureCacheEntry
  | [] => none
  | a :: rest => some (rest.foldl appendAOTIRCaptureCache (appendAOTIRCaptureCache opened a))

def pad (stream : List Byte) : Nat → List Byte
  | 0 => stream
  | n + 1 => if stream.length % 32 = 0 then stream else pad (stream ++ bytes 1 0) n

def indexEntrySize : Nat := 16

def indexEntry (e : Nat × Nat) : List Byte := bytes 8 e.1 ++ bytes 8 e.2

def indexSize (fnCount : Nat) : Nat := fnCount * indexEntrySize + 8 + 8

def inlineIndex (position : Nat) (entries : List (Nat × Nat)) : List Byte :=
  bytes 8 entries.length ++ (bytes 8 (-BitVec.ofNat 64 position).toNat ++ entries.flatMap indexEntry)

def finalizeAOTIRCache (fileId : List Byte) (entry : AOTIRCaptureCacheEntry) : List Byte :=
  let stream := pad entry.stream 31
  stream ++ (inlineIndex stream.length entry.index.entries ++
    (bytes 8 (indexSize entry.index.entries.length) ++ (fileId ++ bytes 8 fileId.length)))

/-! ## Loading -/

def maxRead : Nat := 0x7FFFF000

/-- `lseek` from the end of the file. A negative position is an error, and the position stays. -/
def lseekEnd (file : List Byte) (position : Nat) (offset : BitVec 64) : Nat :=
  if 0 ≤ file.length + offset.toInt then (file.length + offset.toInt).toNat else position

/-- `readAll`: the bytes, if all are read. -/
def readAll (file : List Byte) (position size : Nat) : Option (List Byte) :=
  if min (min size (file.length - position)) maxRead = size then some ((file.drop position).take size) else none

/-- What `LoadAOTIRCache` sets in an `AOTIRCacheEntry`. -/
structure AOTIRCacheEntry where
  array : BitVec 64
  filePtr : BitVec 64
  size : Nat

def loadAOTIRCache (fileId : List Byte) (file : List Byte) (mmap : Nat → Option (BitVec 64)) : Option AOTIRCacheEntry :=
  (readAll file 0 8).bind fun tag =>
    if ofBytes tag = AOTIR_COOKIE then
      let position := lseekEnd file 8 (-8)
      (readAll file position 8).bind fun b =>
        let modSize := ofBytes b
        let position := lseekEnd file (position + 8) (-8 - BitVec.ofNat 64 modSize)
        (readAll file position modSize).bind fun module =>
          if fileId = module then
            let position := lseekEnd file (position + modSize) (-8 - BitVec.ofNat 64 modSize - 8)
            (readAll file position 8).bind fun b =>
              let indexSize := ofBytes b
              let size := (file.length + 4095) / 4096 * 4096
              let indexOffset := BitVec.ofNat 64 file.length - BitVec.ofNat 64 indexSize - 8 - BitVec.ofNat 64 modSize - 8
              (mmap size).map fun filePtr => ⟨filePtr + indexOffset, filePtr, size⟩
          else none
    else none

variable (m : Memory)

def guestStartOf (array : BitVec 64) (i : Int) : Nat := readNat m (array + BitVec.ofInt 64 (16 + 16 * i)) 8

def dataOffsetOf (array : BitVec 64) (i : Int) : BitVec 64 := BitVec.ofNat 64 (readNat m (array + BitVec.ofInt 64 (16 + 16 * i) + 8) 8)

def dataBaseOf (array : BitVec 64) : BitVec 64 := BitVec.ofNat 64 (readNat m (array + 8) 8)

def getInlineEntry (array dataOffset : BitVec 64) : BitVec 64 := array + dataBaseOf m array + dataOffset

def findLoop (array guestStart : BitVec 64) (l r : Int) : Option (BitVec 64) :=
  if l ≤ r then
    let i := l + (r - l) / 2
    if guestStartOf m array i = guestStart.toNat then some (getInlineEntry m array (dataOffsetOf m array i))
    else if guestStartOf m array i < guestStart.toNat then findLoop array guestStart (i + 1) r
    else findLoop array guestStart l (i - 1)
  else none
termination_by (r + 1 - l).toNat

/-- `AOTIRInlineIndex::Find`, with the address of the entry. -/
def find (array guestStart : BitVec 64) : Option (BitVec 64) :=
  findLoop m array guestStart 0 (BitVec.ofNat 64 (readNat m array 8) - 1).toInt

/-- What the cache file has for an entry. -/
structure Contents where
  guestHash : BitVec 64
  guestLength : BitVec 64
  spillSlotCount : BitVec 32
  map : List Byte
  data : List Byte
  list : List Byte

def getRAData (entry : BitVec 64) : BitVec 64 := entry + 16

def mapCountOf (ra : BitVec 64) : Nat := readNat m (ra + 4) 4

def getIRData (entry : BitVec 64) : BitVec 64 := entry + 16 + BitVec.ofNat 64 (raSize (mapCountOf m (getRAData entry)))

def getData (view : BitVec 64) : BitVec 64 :=
  if readNat m view 8 ≠ 0 then BitVec.ofNat 64 (readNat m view 8) else view + 40

def getListData (view : BitVec 64) : BitVec 64 :=
  if readNat m (view + 8) 8 ≠ 0 then BitVec.ofNat 64 (readNat m (view + 8) 8)
  else view + 40 + BitVec.ofNat 64 (readNat m (view + 16) 8)

def contentsAt (entry : BitVec 64) : Contents :=
  let ra := getRAData entry
  let view := getIRData m entry
  ⟨read m entry 64, read m (entry + 8) 64, read m ra 32, readList m (ra + 9) (mapCountOf m ra),
    readList m (getData m view) (readNat m (view + 16) 8), readList m (getListData m view) (readNat m (view + 24) 8)⟩

def Append.contents (a : Append) : Contents :=
  ⟨a.hash, a.length, a.raData.spillSlotCount, a.raData.map, a.irList.data, a.irList.list⟩

def firstAppend (appends : List Append) (guestRIP : BitVec 64) : Option Append :=
  appends.find? fun a => a.guestRIP = guestRIP

end FexEmu.IR.AOTIR
