import Mathlib.Data.List.DropRight
import Defib.Framework.Utf8
import Defib.Rockusb.Maskrom
import Defib.Wire.Packet

/-!
# Loader files

`rockusb/loader.py` takes a loader file apart: a header, and two tables whose entries point at the
blobs of the DDR init and the usbplug.  `download_boot` of `rockusb/recovery.py` uploads the blobs
to the boot ROM.
-/

namespace Defib

namespace Rockusb

/-! ## Names -/

/-- The first unit of a character: what it yields by itself, and the high surrogate that waits for
its other half. -/
def startUtf16 (u : ℕ) : Text × Option ℕ :=
  if 0xD800 ≤ u ∧ u < 0xDC00 then ([], some u)
  else if 0xDC00 ≤ u ∧ u < 0xE000 then ([replacementChar], none)
  else ([Char.ofNat u], none)

/-- The text of the bytes behind a high surrogate, or between two characters. -/
def decodeUtf16From : Option ℕ → List UInt8 → Text
  | pending, b₀ :: b₁ :: bytes =>
      let u := b₀.toNat + b₁.toNat * 256
      match pending with
      | none => (startUtf16 u).1 ++ decodeUtf16From (startUtf16 u).2 bytes
      | some high =>
          if 0xDC00 ≤ u ∧ u < 0xE000 then
            Char.ofNat (0x10000 + (high - 0xD800) * 0x400 + (u - 0xDC00)) ::
              decodeUtf16From none bytes
          else
            replacementChar :: ((startUtf16 u).1 ++ decodeUtf16From (startUtf16 u).2 bytes)
  | none, [] => []
  | _, _ => [replacementChar]

/-- `bytes.decode("utf-16-le", errors="replace").rstrip("\x00")`. -/
def decodeName (bytes : List UInt8) : Text :=
  (decodeUtf16From none bytes).rdropWhile (· = Char.ofNat 0)

/-! ## The file -/

/-- `LoaderFormatError`, and what its message shows. -/
inductive LoaderFormatError
  | emptyImage (empty : List String)
  | tooShort (length : ℕ)
  | badMagic (got : List UInt8)
  | noEntries (missing : List String)
  | entrySize (entrySize : ℕ)
  | entryPastEnd (i base length : ℕ)
  | blobPastEnd (name : Text) (offset size length : ℕ)
  deriving DecidableEq

/-- What may be raised while a file is read. -/
inductive LoaderFailure
  | format (e : LoaderFormatError)
  | structError
  | indexError
  deriving DecidableEq

/-- `LoaderEntry`. -/
structure LoaderEntry where
  name : Text
  data : List UInt8
  delayMs : ℕ
  deriving DecidableEq

/-- `LoaderBlobs`. -/
structure LoaderBlobs where
  ddr : List LoaderEntry
  usbplug : List LoaderEntry
  rc4Disabled : Bool
  deriving DecidableEq

/-- `use_rc4`. -/
def LoaderBlobs.useRc4 (blobs : LoaderBlobs) : Bool := !blobs.rc4Disabled

/-- The images that are empty. -/
def emptyImages (ddr usbplug : List UInt8) : List String :=
  ([("ddr", ddr), ("usbplug", usbplug)].filter fun p => p.2 = []).map Prod.fst

/-- `raw_blobs`. -/
def rawBlobs (ddr usbplug : List UInt8) (useRc4 : Bool) : Except LoaderFailure LoaderBlobs :=
  if emptyImages ddr usbplug ≠ [] then .error (.format (.emptyImage (emptyImages ddr usbplug)))
  else .ok ⟨[⟨"ddr".toList, ddr, 0⟩], [⟨"usbplug".toList, usbplug, 0⟩], !useRc4⟩

def tagBoot : List UInt8 := [0x42, 0x4F, 0x4F, 0x54]
def tagLoader : List UInt8 := [0x4C, 0x44, 0x52, 0x20]

/-- `_ENTRY_TRAILER`. -/
def entryTrailer : ℕ := 12
/-- `_ENTRY_NAME_BYTES`. -/
def entryNameBytes : ℕ := 40

/-- `struct.unpack_from("<III", data, at)`. -/
def unpackIII (data : List UInt8) (pos : ℕ) : Except LoaderFailure (ℕ × ℕ × ℕ) :=
  if pos + 12 ≤ data.length then
    .ok (readLe32 (data.drop pos), readLe32 (data.drop (pos + 4)), readLe32 (data.drop (pos + 8)))
  else .error .structError

/-- The end of a turn of the loop of `_parse_entries`, on the offset, the size and the delay. -/
def entryBlob (data : List UInt8) (name : Text) (trailer : ℕ × ℕ × ℕ) :
    Except LoaderFailure LoaderEntry :=
  let (dataOffset, dataSize, delayMs) := trailer
  if data.length < dataOffset + dataSize then
    .error (.format (.blobPastEnd name dataOffset dataSize data.length))
  else .ok ⟨name, (data.drop dataOffset).take dataSize, delayMs⟩

/-- A turn of the loop of `_parse_entries`. -/
def parseEntry (data : List UInt8) (offset entrySize i : ℕ) : Except LoaderFailure LoaderEntry :=
  let base := offset + i * entrySize
  if data.length < base + entrySize then .error (.format (.entryPastEnd i base data.length))
  else
    let nameAt := base + entrySize - entryTrailer - entryNameBytes
    let name := decodeName ((data.drop nameAt).take entryNameBytes)
    (unpackIII data (base + entrySize - entryTrailer)).bind (entryBlob data name)

/-- `_parse_entries`. -/
def parseEntries (data : List UInt8) (offset entrySize count : ℕ) :
    Except LoaderFailure (List LoaderEntry) :=
  if entrySize < entryTrailer + entryNameBytes then .error (.format (.entrySize entrySize))
  else (List.range count).mapM (parseEntry data offset entrySize)

/-- Where a table is, and how many entries of what size are in it. -/
structure EntryTable where
  count : ℕ
  offset : ℕ
  entrySize : ℕ
  deriving DecidableEq

/-- `struct.unpack_from("<BIB", data, at)`. -/
def unpackBIB (data : List UInt8) (pos : ℕ) : Except LoaderFailure EntryTable :=
  if pos + 6 ≤ data.length then
    .ok ⟨(data.getD pos 0).toNat, readLe32 (data.drop (pos + 1)), (data.getD (pos + 5) 0).toNat⟩
  else .error .structError

/-- `data[i]`. -/
def indexByte (data : List UInt8) (i : ℕ) : Except LoaderFailure UInt8 :=
  match data[i]? with
  | none => .error .indexError
  | some b => .ok b

def tableAt : ℕ := 4 + 2 + 4 + 4 + 7 + 4
def flagsAt : ℕ := tableAt + 6 + 6 + 6

/-- The stages without entries. -/
def missingStages (n471 n472 : ℕ) : List String :=
  ([("DDR init (471)", n471), ("usbplug (472)", n472)].filter fun p => p.2 = 0).map Prod.fst

/-- `parse_loader`, behind the header. -/
def parseTables (data : List UInt8) (table471 table472 : EntryTable) (rc4Flag : UInt8) :
    Except LoaderFailure LoaderBlobs :=
  if missingStages table471.count table472.count ≠ [] then
    .error (.format (.noEntries (missingStages table471.count table472.count)))
  else do
    let ddr ← parseEntries data table471.offset table471.entrySize table471.count
    let usbplug ← parseEntries data table472.offset table472.entrySize table472.count
    pure ⟨ddr, usbplug, rc4Flag != 0⟩

/-- `parse_loader`. -/
def parseLoader (data : List UInt8) : Except LoaderFailure LoaderBlobs :=
  if data.length < 64 then .error (.format (.tooShort data.length))
  else if data.take 4 ≠ tagBoot ∧ data.take 4 ≠ tagLoader then
    .error (.format (.badMagic (data.take 4)))
  else do
    let table471 ← unpackBIB data tableAt
    let table472 ← unpackBIB data (tableAt + 6)
    let rc4Flag ← indexByte data (flagsAt + 1)
    parseTables data table471 table472 rc4Flag

/-! ## The upload -/

/-- `DeviceMode`. -/
inductive DeviceMode
  | maskrom
  | loader
  deriving DecidableEq

def code471 : ℕ := 0x0471
def code472 : ℕ := 0x0472

/-- `_upload`: the payloads of the control transfers that carry a blob. -/
structure StageUpload where
  code : ℕ
  name : Text
  blob : List UInt8
  chunks : List (List UInt8)
  deriving DecidableEq

def LoaderEntry.upload (code : ℕ) (useRc4 : Bool) (entry : LoaderEntry) : StageUpload :=
  ⟨code, entry.name, entry.data, buildMaskromChunks entry.data useRc4⟩

/-- `download_boot`: what is uploaded. -/
def downloadBoot (mode : DeviceMode) (blobs : LoaderBlobs) : List StageUpload :=
  match mode with
  | .loader => []
  | .maskrom =>
      blobs.ddr.map (LoaderEntry.upload code471 blobs.useRc4) ++
        blobs.usbplug.map (LoaderEntry.upload code472 blobs.useRc4)

end Rockusb

end Defib
