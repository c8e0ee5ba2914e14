import Mathlib
import LoxNative.Proofs.BuiltExecutable

namespace LoxNative

/-!
# The image can be loaded

An executable is written field by field, but it is read by offsets: a loader looks up every number
at its fixed place, follows the file header to the table of segments, and maps what it finds there.
A field with a wrong width would shift all fields behind it without changing anything a writer could
notice.

So the image is read here as a loader reads it, with the offsets of the ELF64 layout written out.
Reading gives the headers back, and from them follows where the code is found: the one segment maps
the whole file, and the address at which the image starts leads to the byte at the entry offset.
-/

/-! ## Fields -/

namespace LittleEndian

/-- The number in a field of so many bytes at an offset. -/
def field (file : List UInt8) (offset width : Nat) : Nat :=
  value ((file.drop offset).take width)

/-- Fields one behind the other, each given by its width and its number. -/
def packed (fields : List (Nat × Nat)) : List UInt8 :=
  fields.flatMap fun (width, number) => bytes width number

/-- The number of bytes that fields take. -/
def room : List (Nat × Nat) -> Nat
  | [] => 0
  -- With the width on the right, the sum for given widths is computed one literal at a time.
  | (width, _) :: rest => room rest + width

theorem length_packed (fields : List (Nat × Nat)) : (packed fields).length = room fields := by
  induction fields with
  | nil => rfl
  | cons entry rest ih =>
      rw [packed] at ih
      rw [packed, List.flatMap_cons, List.length_append, bytes_length, ih, room, Nat.add_comm]

/-- A field is found behind the bytes that the fields in front of it take. -/
theorem field_packed {front rest : List UInt8} {fields : List (Nat × Nat)}
    {index offset width number : Nat}
    (listed : fields[index]? = some (width, number)) (small : number < 256 ^ width)
    (place : room (fields.take index) + front.length = offset) :
    field (front ++ packed fields ++ rest) offset width = number := by
  rcases List.getElem?_eq_some_iff.mp listed with ⟨inside, found⟩
  have split : packed fields =
      packed (fields.take index) ++ (bytes width number ++ packed (fields.drop (index + 1))) := by
    conv_lhs => rw [<- List.take_append_drop index fields, List.drop_eq_getElem_cons inside, found]
    simp only [packed, List.flatMap_append, List.flatMap_cons]
  have before : (front ++ packed (fields.take index)).length = offset := by
    rw [List.length_append, length_packed, Nat.add_comm, place]
  have around : front ++ packed fields ++ rest = front ++ packed (fields.take index) ++
      (bytes width number ++ (packed (fields.drop (index + 1)) ++ rest)) := by
    simp only [split, List.append_assoc]
  rw [field, around, List.drop_left' before, List.take_left' (bytes_length width number),
    value_bytes, Nat.mod_eq_of_lt small]

end LittleEndian

open LittleEndian

/-! ## Headers read back -/

namespace FileHeader

/-- The file header of a file, each field at its offset. -/
def decode (file : List UInt8) : Option FileHeader :=
  if file.length < 64 then none
  else some
    { identification := file.take 16
      fileType := .ofNat (field file 16 2)
      machine := .ofNat (field file 18 2)
      version := .ofNat (field file 20 4)
      entry := .ofNat (field file 24 8)
      programHeaderOffset := .ofNat (field file 32 8)
      sectionHeaderOffset := .ofNat (field file 40 8)
      flags := .ofNat (field file 48 4)
      headerSize := .ofNat (field file 52 2)
      programHeaderSize := .ofNat (field file 54 2)
      programHeaderCount := .ofNat (field file 56 2)
      sectionHeaderSize := .ofNat (field file 58 2)
      sectionHeaderCount := .ofNat (field file 60 2)
      sectionNameIndex := .ofNat (field file 62 2) }

/-- The fields behind the identification, in the order in which they are written. -/
def fields (header : FileHeader) : List (Nat × Nat) :=
  [(2, header.fileType.toNat), (2, header.machine.toNat), (4, header.version.toNat),
    (8, header.entry.toNat), (8, header.programHeaderOffset.toNat),
    (8, header.sectionHeaderOffset.toNat), (4, header.flags.toNat), (2, header.headerSize.toNat),
    (2, header.programHeaderSize.toNat), (2, header.programHeaderCount.toNat),
    (2, header.sectionHeaderSize.toNat), (2, header.sectionHeaderCount.toNat),
    (2, header.sectionNameIndex.toNat)]

theorem bytes_eq (header : FileHeader) :
    header.bytes = header.identification ++ packed header.fields := by
  simp only [bytes, fields, packed, dword, qword, List.flatMap_cons, List.flatMap_nil,
    List.append_nil, List.append_assoc]

/-- A file header is read back from what is written for it. -/
theorem decode_bytes (header : FileHeader) (rest : List UInt8)
    (wide : header.identification.length = 16) :
    decode (header.bytes ++ rest) = some header := by
  have long : ¬ (header.bytes ++ rest).length < 64 := by
    have size : room header.fields = 48 := rfl
    rw [bytes_eq, List.length_append, List.length_append, length_packed, wide, size]
    omega
  have front : (header.bytes ++ rest).take 16 = header.identification := by
    rw [bytes_eq, List.append_assoc, List.take_left' wide]
  have found (index offset : Nat) {width number : Nat}
      (listed : header.fields[index]? = some (width, number))
      (small : number < 256 ^ width) (place : room (header.fields.take index) + 16 = offset) :
      field (header.bytes ++ rest) offset width = number := by
    rw [bytes_eq]
    exact field_packed listed small (by rw [wide, place])
  rw [decode, if_neg long, front,
    found 0 16 rfl header.fileType.toNat_lt rfl, found 1 18 rfl header.machine.toNat_lt rfl,
    found 2 20 rfl header.version.toNat_lt rfl, found 3 24 rfl header.entry.toNat_lt rfl,
    found 4 32 rfl header.programHeaderOffset.toNat_lt rfl,
    found 5 40 rfl header.sectionHeaderOffset.toNat_lt rfl,
    found 6 48 rfl header.flags.toNat_lt rfl, found 7 52 rfl header.headerSize.toNat_lt rfl,
    found 8 54 rfl header.programHeaderSize.toNat_lt rfl,
    found 9 56 rfl header.programHeaderCount.toNat_lt rfl,
    found 10 58 rfl header.sectionHeaderSize.toNat_lt rfl,
    found 11 60 rfl header.sectionHeaderCount.toNat_lt rfl,
    found 12 62 rfl header.sectionNameIndex.toNat_lt rfl]
  simp only [UInt16.ofNat_toNat, UInt32.ofNat_toNat, UInt64.ofNat_toNat]

/-- An executable for a 64-bit little-endian x86-64 machine, in the current version of the
format. -/
structure IsExecutable (header : FileHeader) : Prop where
  mark : header.identification.take 4 = [0x7F, 0x45, 0x4C, 0x46]
  wide : header.identification[4]? = some 2
  littleEndian : header.identification[5]? = some 1
  format : header.identification[6]? = some 1
  executable : header.fileType = 2
  processor : header.machine = 62
  current : header.version = 1
  sizes : header.headerSize = 64 ∧ header.programHeaderSize = 56

end FileHeader

namespace SegmentHeader

/-- The segment header that begins at a place of a file, each field at its offset. -/
def decode (place : List UInt8) : Option SegmentHeader :=
  if place.length < 56 then none
  else some
    { segmentType := .ofNat (field place 0 4)
      flags := .ofNat (field place 4 4)
      offset := .ofNat (field place 8 8)
      virtualAddress := .ofNat (field place 16 8)
      physicalAddress := .ofNat (field place 24 8)
      fileSize := .ofNat (field place 32 8)
      memorySize := .ofNat (field place 40 8)
      alignment := .ofNat (field place 48 8) }

/-- The fields in the order in which they are written. -/
def fields (header : SegmentHeader) : List (Nat × Nat) :=
  [(4, header.segmentType.toNat), (4, header.flags.toNat), (8, header.offset.toNat),
    (8, header.virtualAddress.toNat), (8, header.physicalAddress.toNat), (8, header.fileSize.toNat),
    (8, header.memorySize.toNat), (8, header.alignment.toNat)]

theorem bytes_eq (header : SegmentHeader) : header.bytes = packed header.fields := by
  simp only [bytes, fields, packed, dword, qword, List.flatMap_cons, List.flatMap_nil,
    List.append_nil, List.append_assoc]

/-- A segment header is read back from what is written for it. -/
theorem decode_bytes (header : SegmentHeader) (rest : List UInt8) :
    decode (header.bytes ++ rest) = some header := by
  have long : ¬ (header.bytes ++ rest).length < 56 := by
    have size : room header.fields = 56 := rfl
    rw [bytes_eq, List.length_append, length_packed, size]
    omega
  have found (index offset : Nat) {width number : Nat}
      (listed : header.fields[index]? = some (width, number))
      (small : number < 256 ^ width) (place : room (header.fields.take index) = offset) :
      field (header.bytes ++ rest) offset width = number := by
    rw [bytes_eq, <- List.nil_append (packed header.fields)]
    exact field_packed listed small (by rw [List.length_nil, Nat.add_zero, place])
  rw [decode, if_neg long,
    found 0 0 rfl header.segmentType.toNat_lt rfl, found 1 4 rfl header.flags.toNat_lt rfl,
    found 2 8 rfl header.offset.toNat_lt rfl, found 3 16 rfl header.virtualAddress.toNat_lt rfl,
    found 4 24 rfl header.physicalAddress.toNat_lt rfl, found 5 32 rfl header.fileSize.toNat_lt rfl,
    found 6 40 rfl header.memorySize.toNat_lt rfl, found 7 48 rfl header.alignment.toNat_lt rfl]
  simp only [UInt32.ofNat_toNat, UInt64.ofNat_toNat]

/-- The bytes of a file that a segment maps. -/
def contents (segment : SegmentHeader) (file : List UInt8) : List UInt8 :=
  (file.drop segment.offset.toNat).take segment.fileSize.toNat

/-- The offset in the file of the byte that a segment maps to an address, if it maps one there. -/
def fileOffset? (segment : SegmentHeader) (address : Nat) : Option Nat :=
  if segment.virtualAddress.toNat ≤ address ∧
      address < segment.virtualAddress.toNat + segment.fileSize.toNat then
    some (segment.offset.toNat + (address - segment.virtualAddress.toNat))
  else
    none

/-- A segment to be loaded, for reading and executing but not for writing, that maps a whole file
and nothing else.  Its address and its offset agree up to the alignment, as a loader that maps whole
pages needs. -/
structure LoadsWhole (segment : SegmentHeader) (file : List UInt8) : Prop where
  loaded : segment.segmentType = 1
  access : segment.flags = 4 ||| 1
  contents_eq : segment.contents file = file
  fileSize_eq : segment.fileSize.toNat = file.length
  memorySize_eq : segment.memorySize.toNat = file.length
  aligned : 0 < segment.alignment.toNat ∧
    segment.virtualAddress.toNat % segment.alignment.toNat =
      segment.offset.toNat % segment.alignment.toNat

end SegmentHeader

/-- The segments of a file: as many headers as the file header tells, in a table at the offset and
with the steps that it tells. -/
def FileHeader.segments (header : FileHeader) (file : List UInt8) : Option (List SegmentHeader) :=
  (List.range header.programHeaderCount.toNat).mapM fun index =>
    SegmentHeader.decode
      (file.drop (header.programHeaderOffset.toNat + index * header.programHeaderSize.toNat))

/-! ## The image -/

namespace ExecutableImage

section Image

variable (code : List UInt8) (entry : UInt32)

theorem length_encode : (encode code entry).length = 120 + code.length := by
  rw [encode, List.length_append, List.length_append, length_fileHeader, length_segmentHeader]

theorem decode_encode : FileHeader.decode (encode code entry) = some (fileHeader entry) := by
  rw [encode, List.append_assoc]
  exact FileHeader.decode_bytes (fileHeader entry) _ rfl

theorem isExecutable_fileHeader : (fileHeader entry).IsExecutable where
  mark := rfl
  wide := rfl
  littleEndian := rfl
  format := rfl
  executable := rfl
  processor := rfl
  current := rfl
  sizes := ⟨rfl, rfl⟩

theorem segments_encode :
    (fileHeader entry).segments (encode code entry) = some [segmentHeader code.length] := by
  have table : (encode code entry).drop 64 = (segmentHeader code.length).bytes ++ code := by
    rw [encode, List.append_assoc]
    exact List.drop_left' (length_fileHeader entry)
  have first :
      SegmentHeader.decode ((encode code entry).drop 64) = some (segmentHeader code.length) := by
    rw [table]
    exact SegmentHeader.decode_bytes _ _
  change ([0].mapM fun index =>
    SegmentHeader.decode ((encode code entry).drop (64 + index * 56))) = _
  rw [List.mapM_cons, List.mapM_nil, Nat.zero_mul, Nat.add_zero, first]
  rfl

end Image

/-- The length of a file is told exactly if it is a 64-bit number. -/
theorem toNat_fileSize {length : Nat} (fits : 120 + length < 2 ^ 64) :
    (segmentHeader length).fileSize.toNat = 120 + length :=
  UInt64.toNat_ofNat_of_lt' fits

theorem loadsWhole_segmentHeader {code : List UInt8} (entry : UInt32)
    (fits : 120 + code.length < 2 ^ 64) :
    (segmentHeader code.length).LoadsWhole (encode code entry) where
  loaded := rfl
  access := rfl
  contents_eq := by
    apply List.take_of_length_le
    rw [toNat_fileSize fits, <- length_encode code entry]
    exact Nat.le_refl _
  fileSize_eq := by rw [toNat_fileSize fits, length_encode]
  memorySize_eq := by
    rw [length_encode]
    exact toNat_fileSize fits
  aligned := by
    change 0 < 0x1000 ∧ 0x400000 % 0x1000 = 0 % 0x1000
    decide

/-- The address at which an image starts leads to the byte at the entry offset of its code. -/
theorem fileOffset?_entry {length : Nat} {entry : UInt32} (fits : 120 + length < 2 ^ 64)
    (inside : entry.toNat < length) :
    (segmentHeader length).fileOffset? (fileHeader entry).entry.toNat =
      some (120 + entry.toNat) := by
  have base : (segmentHeader length).virtualAddress.toNat = 0x400000 := rfl
  have offset : (segmentHeader length).offset.toNat = 0 := rfl
  have mapped : 0x400000 ≤ 0x400000 + 120 + entry.toNat ∧
      0x400000 + 120 + entry.toNat < 0x400000 + (120 + length) := by
    omega
  rw [SegmentHeader.fileOffset?, toNat_entry_fileHeader, base, offset, toNat_fileSize fits,
    if_pos mapped, Nat.zero_add, Nat.add_assoc, Nat.add_sub_cancel_left]

/-- What is linked can be loaded, and is exactly the code.  Reading the image at the offsets of the
ELF64 layout gives the header of an executable for 64-bit little-endian x86-64 machines with one
segment header, right behind the file header.  The segment is loaded for reading and executing, and
what it maps is the file from its first to its last byte: the headers and the code.  The address at
which the image starts is mapped from the byte at the entry offset behind the headers, so that from
there to the end of the segment stands the code from its entry on.  The length of the file is a
64-bit number, as that of every sequence of bytes in a machine is. -/
theorem link_writes_loadable_image {code : List UInt8} {entry : UInt32}
    (inside : entry.toNat < code.length) (fits : 120 + code.length < 2 ^ 64) :
    exists image header segment,
      Toolchain.link false [ObjectFile.encode code entry] .builtin = (.ok image, .builtin) ∧
      image.length = 120 + code.length ∧
      FileHeader.decode image = some header ∧ header.IsExecutable ∧
      header.programHeaderOffset = 64 ∧ header.programHeaderCount = 1 ∧
      header.segments image = some [segment] ∧ segment.LoadsWhole image ∧
      segment.fileOffset? header.entry.toNat = some (120 + entry.toNat) ∧
      (segment.contents image).drop (header.entry.toNat - segment.virtualAddress.toNat) =
        code.drop entry.toNat := by
  have linked := (Toolchain.imageOf_encode code entry _).mpr ⟨inside, rfl⟩
  have whole := loadsWhole_segmentHeader entry fits
  refine ⟨encode code entry, fileHeader entry, segmentHeader code.length, ?_,
    length_encode code entry, decode_encode code entry, isExecutable_fileHeader entry, rfl, rfl,
    segments_encode code entry, whole, fileOffset?_entry fits inside, ?_⟩
  · rw [Toolchain.link, linked]
    rfl
  · have base : (segmentHeader code.length).virtualAddress.toNat = 0x400000 := rfl
    rw [whole.contents_eq, toNat_entry_fileHeader, base, Nat.add_assoc, Nat.add_sub_cancel_left,
      <- List.drop_drop, drop_encode]

/-- Code that starts at its second byte. -/
theorem link_writes_loadable_image_second :
    exists image header segment,
      Toolchain.link false [ObjectFile.encode [0x90, 0x0F, 0x05] 1] .builtin =
        (.ok image, .builtin) ∧
      FileHeader.decode image = some header ∧ header.segments image = some [segment] ∧
      image.length = 123 ∧ segment.fileSize.toNat = 123 ∧
      segment.fileOffset? header.entry.toNat = some 121 ∧
      (segment.contents image).drop (header.entry.toNat - segment.virtualAddress.toNat) =
        [0x0F, 0x05] := by
  have inside : (1 : UInt32).toNat < ([0x90, 0x0F, 0x05] : List UInt8).length := by decide
  rcases link_writes_loadable_image inside (by decide) with
    ⟨image, header, segment, linked, length, isHeader, -, -, -, isSegment, whole, mapped, code⟩
  exact ⟨image, header, segment, linked, isHeader, isSegment, length,
    whole.fileSize_eq.trans length, mapped, code⟩

end ExecutableImage

end LoxNative
