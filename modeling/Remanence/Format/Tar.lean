import Remanence.Format.Pax

/-!
# Tar header records

A header is a record of 512 bytes with fixed fields. Paths and link targets
that the fields cannot hold are replaced by placeholders; the extended header
in front of the record has the real ones.
-/

namespace Remanence.Format

open Foundation List

def typeRegular : UInt8 := 0x30

def typeHardlink : UInt8 := 0x31

def typeSymlink : UInt8 := 0x32

def typeDirectory : UInt8 := 0x35

def typePaxExtended : UInt8 := 0x78

def typePaxGlobal : UInt8 := 0x67

def ustarSizeFieldMax : ℕ := 0o77777777777

def paxBackedPathPlaceholder : String := "remanence/pax-path"

/-- Target of a header whose target does not fit. -/
def paxBackedLinkPlaceholder : String := "remanence/pax-linkpath"

def validateHeaderPath (path : String) : Except FormatError Unit := do
  rejectIf (path="") (.invalidInput "tar path must not be empty")
  rejectIf (0 ∈ utf8 path) (.invalidInput "tar path must not contain NUL")

def validateLinkName (linkname : String) : Except FormatError Unit := do
  rejectIf (0 ∈ utf8 linkname) (.invalidInput "tar linkname must not contain NUL")
  rejectIf (∃ byte ∈ utf8 linkname, byte < 0x20)
    (.invalidInput "tar linkname must not contain ASCII control characters")

def nameBytes (width : ℕ) (path : String) : Bytes :=
  if (utf8 path).length ≤ width then utf8 path else utf8 "remanence/pax-path"

def octal (digits value : ℕ) : Bytes :=
  replicate (digits-(asciiDigits 8 value).length) 0x30++asciiDigits 8 value

def writeOctal (width value : ℕ) : Except FormatError Bytes := do
  let digits := width-1
  let encoded := octal digits value
  rejectIf (digits < encoded.length) (.layout s!"tar octal field overflow for value {value}")
  return encoded++replicate (width-encoded.length) 0

def writeChecksum (value : ℕ) : Except FormatError Bytes := do
  let encoded := octal 6 value++[0,0x20]
  rejectIf (encoded.length≠8) (.layout "tar checksum encoding length mismatch")
  return encoded

def byteSum (block : Bytes) : ℕ := (block.map UInt8.toNat).sum

def encodeHeaderWithLink (path : String) (size : ℕ) (typeflag : UInt8) (mode : ℕ)
    (linkname : String) : Except FormatError Bytes := do
  validateHeaderPath path
  validateLinkName linkname
  let modeField ← writeOctal 8 mode
  let uidField ← writeOctal 8 0
  let gidField ← writeOctal 8 0
  let sizeField ← writeOctal 12 size
  let mtimeField ← writeOctal 12 0
  let block := writeFields (replicate tarRecordSize 0)
    [(0,nameBytes tarRecordSize path),(100,modeField),(108,uidField),(116,gidField),(124,sizeField),
      (136,mtimeField),(148,replicate 8 0x20),(156,[typeflag]),(157,nameBytes 100 linkname),
      (257,utf8 "ustar\x00"),(263,utf8 "00"),(265,utf8 "remanence"),(297,utf8 "remanence")]
  let checksum ← writeChecksum (byteSum block)
  return writeAt block 148 checksum

def encodeHeader (path : String) (size : ℕ) (typeflag : UInt8) (mode : ℕ) :
    Except FormatError Bytes :=
  encodeHeaderWithLink path size typeflag mode ""

def isPortableUstarName (path : String) : Bool :=
  path≠"" ∧ (utf8 path).length ≤ 100 ∧ (utf8 path).all fun byte => 0x20 ≤ byte ∧ byte < 0x7f

def isPortableUstarLinkname (target : String) : Bool :=
  (utf8 target).length ≤ 100 ∧ (utf8 target).all fun byte => byte≠0 ∧ 0x20 ≤ byte

def paxBackedPath (path : String) : String :=
  if isPortableUstarName path then path else paxBackedPathPlaceholder

def paxBackedLinkname (target : String) (targetInPax : Bool) : String :=
  if targetInPax then paxBackedLinkPlaceholder else target

def encodePaxBackedRegularHeader (path : String) (size mode : ℕ) : Except FormatError Bytes :=
  encodeHeader (paxBackedPath path) (if size ≤ ustarSizeFieldMax then size else 0) typeRegular mode

def encodePaxBackedSymlinkHeader (path target : String) (targetInPax : Bool) :
    Except FormatError Bytes :=
  encodeHeaderWithLink (paxBackedPath path) 0 typeSymlink 0o777 (paxBackedLinkname target targetInPax)

def encodePaxBackedHardlinkHeader (path target : String) (targetInPax : Bool) :
    Except FormatError Bytes :=
  encodeHeaderWithLink (paxBackedPath path) 0 typeHardlink 0o644 (paxBackedLinkname target targetInPax)

def encodePaxBackedDirectoryHeader (path : String) : Except FormatError Bytes :=
  encodeHeader (paxBackedPath path) 0 typeDirectory 0o755

variable {value : ℕ}

theorem length_asciiDigits_le_iff {k : ℕ} (hk : 0 < k) :
    (asciiDigits 8 value).length ≤ k ↔ value < 8^k := by
  rw [asciiDigits,length_map,Nat.length_toDigits_le_iff (show 1 < 8 by decide) hk]

theorem length_octal_of_lt {digits : ℕ} (hdigits : 0 < digits) (h : value < 8^digits) :
    (octal digits value).length=digits := by
  have hlength := (length_asciiDigits_le_iff hdigits).mpr h
  rw [octal,length_append,length_replicate]
  omega

def octalField (width value : ℕ) : Bytes := octal (width-1) value++[0]

variable {width : ℕ}

theorem length_octalField (hwidth : 1 < width) (h : value < 8^(width-1)) :
    (octalField width value).length=width := by
  rw [octalField,length_append,length_octal_of_lt (by omega) h,length_singleton]
  omega

theorem writeOctal_eq (hwidth : 1 < width) : writeOctal width value=
    if value < 8^(width-1) then .ok (octalField width value)
    else .error (.layout s!"tar octal field overflow for value {value}") := by
  split_ifs with h
  · have hlength := length_octal_of_lt (show 0 < width-1 by omega) h
    rw [writeOctal,rejectIf_pos (by omega),ok_bind,hlength,show width-(width-1)=1 by omega]
    rfl
  · rw [writeOctal,rejectIf_neg,error_bind]
    rw [← length_asciiDigits_le_iff (by omega)] at h
    rw [octal,length_append]
    omega

theorem byteSum_le (block : Bytes) : byteSum block ≤ 255*block.length := by
  induction block with
  | nil => exact Nat.zero_le _
  | cons byte block ih =>
    have hbyte := byte.toNat_lt
    rw [byteSum,map_cons,sum_cons,length_cons]
    change byte.toNat+byteSum block ≤ _
    omega

theorem length_nameBytes_le (hwidth : 18 ≤ width) (path : String) :
    (nameBytes width path).length ≤ width := by
  rw [nameBytes]
  split_ifs with h
  · exact h
  · exact le_trans (by decide) hwidth

structure HeaderTexts (path linkname : String) : Prop where
  nonempty : path≠""
  nul_free : 0 ∉ utf8 path
  printable : ∀ byte ∈ utf8 linkname, 0x20 ≤ byte

theorem HeaderTexts.path_ok {path linkname : String} (h : HeaderTexts path linkname) :
    validateHeaderPath path=.ok () := by
  rw [validateHeaderPath,rejectIf_pos h.nonempty,ok_bind,rejectIf_pos h.nul_free]

theorem HeaderTexts.link_ok {path linkname : String} (h : HeaderTexts path linkname) :
    validateLinkName linkname=.ok () := by
  rw [validateLinkName,rejectIf_pos,ok_bind,rejectIf_pos]
  · rintro ⟨byte,hbyte,hlt⟩
    exact UInt8.not_lt.mpr (h.printable byte hbyte) hlt
  · intro hzero
    exact absurd (h.printable 0 hzero) (by decide)

/-- Names of headers without a link are accepted unless they are empty or have a zero byte. -/
theorem HeaderTexts.unlinked {path : String} (hne : path≠"") (hnul : 0 ∉ utf8 path) :
    HeaderTexts path "" := ⟨hne,hnul,fun _ hmem => absurd hmem not_mem_nil⟩

def namedRecord (path : String) : Bytes :=
  writeAt (replicate tarRecordSize 0) 0 (nameBytes tarRecordSize path)

theorem namedRecord_eq (path : String) : namedRecord path=
    nameBytes tarRecordSize path++replicate (tarRecordSize-(nameBytes tarRecordSize path).length) 0 := by
  rw [namedRecord,writeAt,take_zero,nil_append,drop_replicate,Nat.zero_add]

theorem length_namedRecord (path : String) : (namedRecord path).length=512 := by
  rw [namedRecord_eq,length_append,length_replicate]
  exact Nat.add_sub_of_le (length_nameBytes_le (by decide) path)

def headerFields (size : ℕ) (typeflag : UInt8) (mode : ℕ) (linkname : String) : List (ℕ×Bytes) :=
  [(100,octalField 8 mode),(108,octalField 8 0),(116,octalField 8 0),(124,octalField 12 size),
    (136,octalField 12 0),(148,replicate 8 0x20),(156,[typeflag]),(157,nameBytes 100 linkname),
    (257,utf8 "ustar\x00"),(263,utf8 "00"),(265,utf8 "remanence"),(297,utf8 "remanence")]

def headerBlock (path : String) (size : ℕ) (typeflag : UInt8) (mode : ℕ) (linkname : String) : Bytes :=
  writeFields (namedRecord path) (headerFields size typeflag mode linkname)

def checksumField (block : Bytes) : Bytes := octal 6 (byteSum block)++[0,0x20]

section

variable {path linkname : String} {size mode : ℕ} (hsize : size < 8^11) (hmode : mode < 8^7)
include hsize hmode

theorem headerFields_inOrder (linkname : String) (typeflag : UInt8) :
    FieldsInOrder 329 100 (headerFields size typeflag mode linkname) := by
  have hlinkname := length_nameBytes_le (show 18 ≤ 100 by decide) linkname
  have hid := length_octalField (show 1 < 8 by decide) (show 0 < 8^(8-1) by decide)
  have htime := length_octalField (show 1 < 12 by decide) (show 0 < 8^(12-1) by decide)
  have htexts : (utf8 "ustar\x00").length=6 ∧ (utf8 "00").length=2 ∧ (utf8 "remanence").length=9 := by
    decide
  simp only [headerFields,FieldsInOrder,length_octalField (show 1 < 8 by decide) hmode,hid,htime,
    length_octalField (show 1 < 12 by decide) hsize,length_replicate,length_singleton,htexts]
  omega

theorem headerFields_fit (path linkname : String) (typeflag : UInt8) :
    FieldsInOrder (namedRecord path).length 100 (headerFields size typeflag mode linkname) :=
  (headerFields_inOrder hsize hmode linkname typeflag).mono (by rw [length_namedRecord]; decide)

theorem length_headerBlock (path linkname : String) (typeflag : UInt8) :
    (headerBlock path size typeflag mode linkname).length=512 :=
  (length_writeFields (headerFields_fit hsize hmode path linkname typeflag)).trans
    (length_namedRecord path)

theorem length_checksumField (path linkname : String) (typeflag : UInt8) :
    (checksumField (headerBlock path size typeflag mode linkname)).length=8 := by
  have hsum := byteSum_le (headerBlock path size typeflag mode linkname)
  rw [length_headerBlock hsize hmode] at hsum
  rw [checksumField,length_append,length_octal_of_lt (by decide) (lt_of_le_of_lt hsum (by decide))]
  rfl

theorem encodeHeaderWithLink_of_lt (h : HeaderTexts path linkname) (typeflag : UInt8) :
    encodeHeaderWithLink path size typeflag mode linkname=
      .ok (writeAt (headerBlock path size typeflag mode linkname) 148
        (checksumField (headerBlock path size typeflag mode linkname))) := by
  have hlength := length_checksumField hsize hmode path linkname typeflag
  rw [checksumField] at hlength
  rw [encodeHeaderWithLink,h.path_ok,ok_bind,h.link_ok,ok_bind,writeOctal_eq (by decide),if_pos hmode,
    ok_bind,writeOctal_eq (by decide),if_pos (by decide),ok_bind,ok_bind,writeOctal_eq (by decide),
    if_pos hsize,ok_bind,writeOctal_eq (by decide),if_pos (by decide),ok_bind]
  have hblock : writeFields (replicate tarRecordSize 0) ((0,nameBytes tarRecordSize path)::
      headerFields size typeflag mode linkname)=headerBlock path size typeflag mode linkname := by
    rw [writeFields,foldl_cons,headerBlock,namedRecord,writeFields]
  rw [headerFields] at hblock
  dsimp only
  rw [hblock,writeChecksum,rejectIf_pos (not_not.mpr hlength)]
  rfl

end

theorem encodeHeaderWithLink_eq {path linkname : String} (h : HeaderTexts path linkname) (size : ℕ)
    {mode : ℕ} (hmode : mode < 8^7) (typeflag : UInt8) :
    (size < 8^11 → ∃ header, encodeHeaderWithLink path size typeflag mode linkname=.ok header ∧
      header.length=tarRecordSize) ∧
    (8^11 ≤ size → encodeHeaderWithLink path size typeflag mode linkname=
      .error (.layout s!"tar octal field overflow for value {size}")) := by
  constructor
  · intro hsize
    have hblock := length_headerBlock hsize hmode path linkname typeflag
    refine ⟨_,encodeHeaderWithLink_of_lt hsize hmode h typeflag,?_⟩
    rw [length_writeAt,hblock]
    · rfl
    · rw [hblock,length_checksumField hsize hmode]
      decide
  · intro hsize
    rw [encodeHeaderWithLink,h.path_ok,ok_bind,h.link_ok,ok_bind,writeOctal_eq (by decide),if_pos hmode,
      ok_bind,writeOctal_eq (by decide),if_pos (by decide),ok_bind,ok_bind,writeOctal_eq (by decide),
      if_neg (not_lt.mpr hsize),error_bind]

end Remanence.Format
