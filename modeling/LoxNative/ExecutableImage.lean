import LoxNative.LittleEndian

namespace LoxNative

/-!
# Executable images

A static 64-bit ELF executable with one segment.  The segment maps the whole file, headers included,
to one address, readable and executable, and the code stands right behind the headers.
-/

/-- The header of an ELF file. -/
structure FileHeader where
  /-- The identification: the mark, 64 bits, little-endian, version one, no particular system. -/
  identification : List UInt8
  fileType : UInt16
  machine : UInt16
  version : UInt32
  entry : UInt64
  programHeaderOffset : UInt64
  sectionHeaderOffset : UInt64
  flags : UInt32
  headerSize : UInt16
  programHeaderSize : UInt16
  programHeaderCount : UInt16
  sectionHeaderSize : UInt16
  sectionHeaderCount : UInt16
  sectionNameIndex : UInt16
deriving DecidableEq, Inhabited

namespace FileHeader

/-- The bytes of a file header. -/
def bytes (header : FileHeader) : List UInt8 :=
  header.identification ++
    LittleEndian.bytes 2 header.fileType.toNat ++
    LittleEndian.bytes 2 header.machine.toNat ++
    LittleEndian.dword header.version ++
    LittleEndian.qword header.entry ++
    LittleEndian.qword header.programHeaderOffset ++
    LittleEndian.qword header.sectionHeaderOffset ++
    LittleEndian.dword header.flags ++
    LittleEndian.bytes 2 header.headerSize.toNat ++
    LittleEndian.bytes 2 header.programHeaderSize.toNat ++
    LittleEndian.bytes 2 header.programHeaderCount.toNat ++
    LittleEndian.bytes 2 header.sectionHeaderSize.toNat ++
    LittleEndian.bytes 2 header.sectionHeaderCount.toNat ++
    LittleEndian.bytes 2 header.sectionNameIndex.toNat

end FileHeader

/-- The header of a segment. -/
structure SegmentHeader where
  segmentType : UInt32
  flags : UInt32
  offset : UInt64
  virtualAddress : UInt64
  physicalAddress : UInt64
  fileSize : UInt64
  memorySize : UInt64
  alignment : UInt64
deriving DecidableEq, Inhabited

namespace SegmentHeader

/-- The bytes of a segment header. -/
def bytes (header : SegmentHeader) : List UInt8 :=
  LittleEndian.dword header.segmentType ++
    LittleEndian.dword header.flags ++
    LittleEndian.qword header.offset ++
    LittleEndian.qword header.virtualAddress ++
    LittleEndian.qword header.physicalAddress ++
    LittleEndian.qword header.fileSize ++
    LittleEndian.qword header.memorySize ++
    LittleEndian.qword header.alignment

end SegmentHeader

namespace ExecutableImage

/-- The address to which the file is mapped. -/
def baseAddress : UInt64 := 0x400000

/-- The offset of the code in the file: behind the file header and one segment header. -/
def codeOffset : Nat := 64 + 56

/-- The file header of an image that starts at an offset of its code. -/
def fileHeader (entry : UInt32) : FileHeader where
  identification := [0x7F, 0x45, 0x4C, 0x46, 2, 1, 1, 0, 0, 0, 0, 0, 0, 0, 0, 0]
  fileType := 2
  machine := 62
  version := 1
  entry := baseAddress + UInt64.ofNat codeOffset + entry.toUInt64
  programHeaderOffset := 64
  sectionHeaderOffset := 0
  flags := 0
  headerSize := 64
  programHeaderSize := 56
  programHeaderCount := 1
  sectionHeaderSize := 0
  sectionHeaderCount := 0
  sectionNameIndex := 0

/-- The segment header of an image with so many bytes of code. -/
def segmentHeader (length : Nat) : SegmentHeader where
  segmentType := 1
  flags := 5
  offset := 0
  virtualAddress := baseAddress
  physicalAddress := baseAddress
  fileSize := UInt64.ofNat (codeOffset + length)
  memorySize := UInt64.ofNat (codeOffset + length)
  alignment := 0x1000

/-- The executable image of code that starts at an offset. -/
def encode (code : List UInt8) (entry : UInt32) : List UInt8 :=
  (fileHeader entry).bytes ++ (segmentHeader code.length).bytes ++ code

end ExecutableImage

end LoxNative
