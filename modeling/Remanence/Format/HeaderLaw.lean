import Remanence.Format.Tar
import Remanence.Foundation.Canonical

/-!
# Reading a tar header back

A header's numbers and its name are read back as they were written. The name
is laid over the whole record before the other fields are, so a path of more
bytes than the name field, and at most a record, is left in the fields that
nothing overwrites.
-/

namespace Remanence.Format

open Foundation List

def isUstarWhitespace (byte : UInt8) : Bool := byte=0x20 ∨ 9 ≤ byte ∧ byte ≤ 13

def octalDigits (invalid : FormatError) : ℕ → Bytes → Except FormatError ℕ
  | value,[] => .ok value
  | value,byte::rest =>
    if byte=0 ∨ isUstarWhitespace byte then
      if rest.all fun byte => byte=0 ∨ isUstarWhitespace byte then .ok value else .error invalid
    else if 0x30 ≤ byte ∧ byte ≤ 0x37 then
      let value := value*8+(byte-0x30).toNat
      if value < 2^64 then octalDigits invalid value rest else .error invalid
    else .error invalid

def parseUstarOctal (field : Bytes) (name : String) : Except FormatError ℕ :=
  octalDigits (.parse s!"{name} field is not octal") 0 (field.dropWhile isUstarWhitespace)

def nulTerminated (field : Bytes) : Except FormatError String :=
  orElseError (String.fromUTF8? ⟨(field.takeWhile (·≠0)).toArray⟩)
    (.parse "ustar header field is not UTF-8")

def headerPath (header : Bytes) : Except FormatError String := do
  let name ← nulTerminated (slice header 0 100)
  let pathStart ← nulTerminated (slice header 345 155)
  return if pathStart="" then name else s!"{pathStart}/{name}"

/-- The stored checksum is the sum of the record with spaces in its place. -/
def verifyChecksum (header : Bytes) : Except FormatError Unit := do
  let stored ← parseUstarOctal (slice header 148 8) "checksum"
  let computed := byteSum (writeAt header 148 (replicate 8 0x20))
  rejectIf (stored≠computed) (.ustarChecksumMismatch stored computed)

variable {invalid : FormatError} {value : ℕ}

def digitByte (digit : ℕ) : UInt8 := UInt8.ofNat (48+digit)

theorem digitByte_facts : ∀ digit < 8, (¬(digitByte digit=0 ∨ isUstarWhitespace (digitByte digit))) ∧
    (0x30 ≤ digitByte digit ∧ digitByte digit ≤ 0x37) ∧ (digitByte digit-0x30).toNat=digit := by
  decide

theorem octalDigits_digit {digit : ℕ} (hdigit : digit < 8) (h : value*8+digit < 2^64) (rest : Bytes) :
    octalDigits invalid value (digitByte digit::rest)=octalDigits invalid (value*8+digit) rest := by
  obtain ⟨hplain,hrange,hdigit⟩ := digitByte_facts digit hdigit
  rw [octalDigits,if_neg hplain,if_pos hrange,hdigit]
  exact if_pos h

theorem asciiDigits_eq (value : ℕ) : asciiDigits 8 value=
    (if value < 8 then [] else asciiDigits 8 (value/8))++[digitByte (value%8)] := by
  have hdigit : ∀ digit < 8, UInt8.ofNat (Nat.digitChar digit).toNat=digitByte digit := by decide
  have hlast := hdigit (value%8) (Nat.mod_lt value (by decide))
  rw [asciiDigits,Nat.toDigits_eq_if (by decide)]
  split_ifs with h
  · rw [Nat.mod_eq_of_lt h] at hlast ⊢
    rw [map_singleton,hlast,nil_append]
  · rw [map_append,map_singleton,hlast]
    rfl

theorem octalDigits_asciiDigits (h : value < 2^64) (rest : Bytes) :
    octalDigits invalid 0 (asciiDigits 8 value++rest)=octalDigits invalid value rest := by
  induction value using Nat.strong_induction_on generalizing rest with
  | _ value ih =>
    have hmod := Nat.mod_lt value (show 0 < 8 by decide)
    rw [asciiDigits_eq,append_assoc,singleton_append]
    split_ifs with hsmall
    · rw [nil_append,octalDigits_digit hmod (by omega),Nat.mod_eq_of_lt hsmall,Nat.zero_mul,Nat.zero_add]
    · rw [ih (value/8) (by omega) (by omega),octalDigits_digit hmod (by omega)]
      congr 1
      omega

theorem octalDigits_octal (h : value < 2^64) (digits : ℕ) (rest : Bytes) :
    octalDigits invalid 0 (octal digits value++rest)=octalDigits invalid value rest := by
  rw [octal,append_assoc]
  induction digits-(asciiDigits 8 value).length with
  | zero => exact octalDigits_asciiDigits h rest
  | succ count ih => exact (octalDigits_digit (show 0 < 8 by decide) (by decide) _).trans ih

theorem octal_eq_cons (digits value : ℕ) : ∃ digit < 8, ∃ rest, octal digits value=digitByte digit::rest := by
  have hascii : ∃ digit < 8, ∃ rest, asciiDigits 8 value=digitByte digit::rest := by
    induction value using Nat.strong_induction_on with
    | _ value ih =>
      rw [asciiDigits_eq]
      split_ifs with hsmall
      · exact ⟨value%8,Nat.mod_lt value (by decide),[],rfl⟩
      · obtain ⟨digit,hdigit,rest,hrest⟩ := ih (value/8) (by omega)
        exact ⟨digit,hdigit,_,by rw [hrest]; rfl⟩
  rw [octal]
  cases digits-(asciiDigits 8 value).length with
  | zero => exact hascii
  | succ count => exact ⟨0,by decide,_,rfl⟩

/-- A number is read back from its digits and the terminators behind them. -/
theorem parseUstarOctal_octal (h : value < 2^64) (digits : ℕ) {rest : Bytes}
    (hrest : rest.all fun byte => byte=0 ∨ isUstarWhitespace byte) (name : String) :
    parseUstarOctal (octal digits value++rest) name=.ok value := by
  obtain ⟨digit,hdigit,tail,htail⟩ := octal_eq_cons digits value
  have hstart : (octal digits value++rest).dropWhile isUstarWhitespace=octal digits value++rest := by
    rw [htail,cons_append,dropWhile_cons_of_neg fun h => (digitByte_facts digit hdigit).1 (.inr h)]
  rw [parseUstarOctal,hstart,octalDigits_octal h]
  cases rest with
  | nil => rfl
  | cons byte rest =>
    rw [all_cons,Bool.and_eq_true,decide_eq_true_eq] at hrest
    rw [octalDigits,if_pos hrest.1,if_pos hrest.2]

theorem parseUstarOctal_octalField (h : value < 2^64) (width : ℕ) (name : String) :
    parseUstarOctal (octalField width value) name=.ok value :=
  parseUstarOctal_octal h (width-1) (by decide) name

theorem lt_of_writeOctal {width : ℕ} {field : Bytes} (hwidth : 1 < width)
    (h : writeOctal width value=.ok field) : value < 8^(width-1) := by
  rw [writeOctal_eq hwidth] at h
  exact (Classical.em _).resolve_right fun hle => by rw [if_neg hle] at h; cases h

theorem writeAt_restore {block bytes old : Bytes} {offset : ℕ} (h : offset+bytes.length ≤ block.length)
    (hlength : old.length=bytes.length) (hold : slice block offset bytes.length=old) :
    writeAt (writeAt block offset bytes) offset old=block := by
  have htake : (block.take offset).length=offset := by rw [length_take]; omega
  have hdrop : (block.take offset++bytes).length=offset+bytes.length := by rw [length_append,htake]
  rw [writeAt,writeAt,append_assoc (block.take offset) bytes,take_left' htake,hlength,← append_assoc,
    drop_left' hdrop,append_assoc,← hold,slice,← drop_drop,take_append_drop,take_append_drop]

variable {path : String} {size mode : ℕ} {typeflag : UInt8} {header : Bytes}

structure HeaderNumbers (size : ℕ) (typeflag : UInt8) (mode : ℕ) (header : Bytes) : Prop where
  checksum : verifyChecksum header=.ok ()
  size : parseUstarOctal (slice header 124 12) "size"=.ok size
  mode : parseUstarOctal (slice header 100 8) "mode"=.ok mode
  typeflag : slice header 156 1=[typeflag]
  uid : slice header 108 8=octalField 8 0
  gid : slice header 116 8=octalField 8 0

structure HeaderReads (path : String) (size : ℕ) (typeflag : UInt8) (mode : ℕ) (header : Bytes) : Prop
    extends HeaderNumbers size typeflag mode header where
  path : headerPath header=.ok (if (utf8 path).length ≤ 100 then path else paxBackedPathPlaceholder)
  devices : slice header 329 16=replicate 16 0
  prefixField : slice header 345 155=replicate 155 0

theorem encodeHeader_fields (h : encodeHeader path size typeflag mode=.ok header) :
    0 ∉ utf8 path ∧ HeaderNumbers size typeflag mode header ∧ ∀ offset len,
      offset+len ≤ 100 ∨ 329 ≤ offset → slice header offset len=slice (namedRecord path) offset len := by
  have hparts := h
  rw [encodeHeader,encodeHeaderWithLink] at hparts
  simp only [bind_eq_ok,validateHeaderPath,rejectIf_eq_ok,exists_const] at hparts
  obtain ⟨⟨hempty,hnul⟩,_,-,_,hmode,_,-,_,-,_,hsize,-⟩ := hparts
  have hmode := lt_of_writeOctal (by decide) hmode
  have hsize := lt_of_writeOctal (by decide) hsize
  rw [encodeHeader,encodeHeaderWithLink_of_lt hsize hmode (.unlinked hempty hnul)] at h
  obtain rfl := Except.ok.inj h
  have horder := headerFields_fit hsize hmode path "" typeflag
  have hrecord := length_headerBlock hsize hmode path "" typeflag
  have hlength := length_checksumField hsize hmode path "" typeflag
  have hsum := byteSum_le (headerBlock path size typeflag mode "")
  have hmem : ∀ field ∈ headerFields size typeflag mode "",
      slice (headerBlock path size typeflag mode "") field.1 field.2.length=field.2 :=
    fun _ => slice_writeFields_mem horder
  have hname : ∀ offset len, offset+len ≤ 100 ∨ 329 ≤ offset →
      slice (headerBlock path size typeflag mode "") offset len=slice (namedRecord path) offset len := by
    rintro offset len (h | h)
    · exact slice_writeFields_before horder h
    · exact slice_writeFields_after horder fun _ hfield =>
        ((headerFields_inOrder hsize hmode "" typeflag).mem_le hfield).trans h
  generalize headerBlock path size typeflag mode ""=block at *
  have hfits : 148+(checksumField block).length ≤ block.length := by omega
  -- the checksum replaces the spaces and nothing else
  have hkept : ∀ offset len, offset+len ≤ 148 ∨ 156 ≤ offset →
      slice (writeAt block 148 (checksumField block)) offset len=slice block offset len := by
    rintro offset len (h | h)
    · exact slice_writeAt_before hfits h
    · exact slice_writeAt_after hfits (by omega)
  have hread : ∀ {offset len bytes}, (offset,bytes) ∈ headerFields size typeflag mode "" →
      bytes.length=len → offset+len ≤ 148 ∨ 156 ≤ offset →
      slice (writeAt block 148 (checksumField block)) offset len=bytes := by
    rintro offset _ bytes hfield rfl h
    exact (hkept _ _ h).trans (hmem _ hfield)
  have hid := length_octalField (show 1 < 8 by decide) (show 0 < 8^(8-1) by decide)
  refine ⟨hnul,⟨?_,?_,?_,hread (by simp [headerFields]) rfl (.inr le_rfl),
    hread (by simp [headerFields]) hid (by decide),hread (by simp [headerFields]) hid (by decide)⟩,
    fun offset len h => (hkept offset len (by omega)).trans (hname offset len h)⟩
  · have hfield : slice (writeAt block 148 (checksumField block)) 148 8=checksumField block := by
      rw [← hlength]
      exact slice_writeAt_same (by omega)
    have hspaces := hmem (148,replicate 8 0x20) (by simp [headerFields])
    rw [verifyChecksum,hfield,writeAt_restore hfits (length_replicate.trans hlength.symm)
      (by rw [hlength]; exact hspaces),checksumField,parseUstarOctal_octal (by omega) 6 (by decide),ok_bind,
      rejectIf_pos (not_not.mpr rfl)]
  · rw [hread (by simp [headerFields]) (length_octalField (by decide) hsize) (by decide),
      parseUstarOctal_octalField (by omega)]
  · rw [hread (by simp [headerFields]) (length_octalField (by decide) hmode) (by decide),
      parseUstarOctal_octalField (by omega)]

theorem takeWhile_nonzero {bytes : Bytes} (h : 0 ∉ bytes) (count : ℕ) :
    (bytes++replicate count 0).takeWhile (·≠0)=bytes := by
  rw [takeWhile_append_of_pos fun byte hbyte => by simpa using ne_of_mem_of_not_mem hbyte h]
  cases count <;> simp [replicate_succ]

theorem nulTerminated_append {text : String} (hnul : 0 ∉ utf8 text) (count : ℕ) :
    nulTerminated (utf8 text++replicate count 0)=.ok text := by
  rw [nulTerminated,takeWhile_nonzero hnul,fromUTF8_eq_some.mpr rfl,orElseError_some]

/-- A name that its field holds is read back, and the rest of the record stays empty. -/
theorem headerPath_of_short {text : String} (htext : nameBytes tarRecordSize path=utf8 text)
    (hlength : (utf8 text).length ≤ 100) (hnul : 0 ∉ utf8 text)
    (h : ∀ offset len, offset+len ≤ 100 ∨ 329 ≤ offset →
      slice header offset len=slice (namedRecord path) offset len) :
    headerPath header=.ok text ∧ slice header 329 16=replicate 16 0 ∧
      slice header 345 155=replicate 155 0 := by
  have hrecord := namedRecord_eq path
  rw [htext] at hrecord
  have hempty : ∀ offset len, 329 ≤ offset → offset+len ≤ tarRecordSize →
      slice header offset len=replicate len 0 := by
    intro offset len hoffset hend
    rw [h _ _ (.inr hoffset),hrecord,slice,drop_append,drop_eq_nil_of_le (by omega),nil_append,
      drop_replicate,take_replicate]
    congr 1
    omega
  have hname : slice header 0 100=utf8 text++replicate (100-(utf8 text).length) 0 := by
    have hsize : 100 ≤ tarRecordSize := by decide
    rw [h _ _ (.inl le_rfl),hrecord,slice_zero,take_append,take_of_length_le hlength,take_replicate]
    congr 2
    omega
  have hstart := hempty 345 155 (by decide) (by decide)
  refine ⟨?_,hempty 329 16 le_rfl (by decide),hstart⟩
  rw [headerPath,hname,nulTerminated_append hnul,ok_bind,hstart,
    show nulTerminated (replicate 155 0)=.ok "" from @nulTerminated_append "" (by decide) 155]
  rfl

theorem utf8_append (a b : String) : utf8 (a++b)=utf8 a++utf8 b := by
  simp [utf8]

theorem le_length_of_headerPath (hlong : 100 < (utf8 path).length)
    (hrecord : (utf8 path).length ≤ tarRecordSize) (hnul : 0 ∉ utf8 path)
    (hname : slice header 0 100=slice (namedRecord path) 0 100) {read : String}
    (hread : headerPath header=.ok read) : 100 ≤ (utf8 read).length := by
  rw [namedRecord_eq,nameBytes,if_pos hrecord,slice_zero (_++_),take_append_of_le_length hlong.le] at hname
  simp only [headerPath,nulTerminated,bind_eq_ok,pure_eq_ok,orElseError_eq_ok,fromUTF8_eq_some,
    hname] at hread
  obtain ⟨name,hname,start,-,rfl⟩ := hread
  have hwhole := takeWhile_nonzero (show 0 ∉ (utf8 path).take 100 from fun h => hnul (mem_of_mem_take h)) 0
  rw [replicate_zero,append_nil] at hwhole
  rw [hwhole] at hname
  have hlength : (utf8 name).length=100 := by
    rw [hname,length_take]
    omega
  split_ifs
  · exact hlength.ge
  · change 100 ≤ (utf8 (start++"/"++name)).length
    rw [utf8_append,length_append]
    omega

/-- Headers read back exactly if the path fits the name field or exceeds the record. -/
theorem headerReads_iff (h : encodeHeader path size typeflag mode=.ok header) :
    HeaderReads path size typeflag mode header ↔
      (utf8 path).length ≤ 100 ∨ 512 < (utf8 path).length := by
  obtain ⟨hnul,hnumbers,hname⟩ := encodeHeader_fields h
  constructor
  · intro hreads
    by_contra hmiddle
    rw [not_or,not_le,not_lt] at hmiddle
    have hread := hreads.path
    rw [if_neg (not_le.mpr hmiddle.1)] at hread
    exact absurd (le_length_of_headerPath hmiddle.1 hmiddle.2 hnul (hname _ _ (.inl le_rfl)) hread) (by decide)
  · rintro (hshort | hlong)
    · have htext : nameBytes tarRecordSize path=utf8 path := if_pos (hshort.trans (by decide))
      obtain ⟨hpath,hdevices,hstart⟩ := headerPath_of_short htext hshort hnul hname
      exact ⟨hnumbers,by rwa [if_pos hshort],hdevices,hstart⟩
    · have htext : nameBytes tarRecordSize path=utf8 paxBackedPathPlaceholder := if_neg (not_le.mpr hlong)
      obtain ⟨hpath,hdevices,hstart⟩ := headerPath_of_short htext (by decide) (by decide) hname
      exact ⟨hnumbers,by rwa [if_neg (by omega)],hdevices,hstart⟩

theorem headerReads_short : ∃ header, encodeHeader "a" 5 typeRegular 0o644=.ok header ∧
    HeaderReads "a" 5 typeRegular 0o644 header := by
  obtain ⟨header,h,-⟩ := (encodeHeaderWithLink_eq (.unlinked (show "a"≠"" by decide) (by decide)) 5
    (show 0o644 < 8^7 by decide) typeRegular).1 (by decide)
  exact ⟨header,h,(headerReads_iff h).mpr (.inl (by decide))⟩

/-- A path one byte longer than the name field is read back without its last byte. -/
theorem header_cuts_path : ∃ header,
    encodeHeader (String.ofList (replicate 101 'x')) 5 typeRegular 0o644=.ok header ∧
      headerPath header≠.ok paxBackedPathPlaceholder := by
  have hbytes := utf8_replicate 101
  have hlength : (utf8 (String.ofList (replicate 101 'x'))).length=101 := by
    rw [hbytes,length_replicate]
  have hnul : 0 ∉ utf8 (String.ofList (replicate 101 'x')) := by
    rw [hbytes,mem_replicate]
    decide
  obtain ⟨header,h,-⟩ := (encodeHeaderWithLink_eq (.unlinked (by decide) hnul) 5
    (show 0o644 < 8^7 by decide) typeRegular).1 (by decide)
  refine ⟨header,h,fun hread => ?_⟩
  have hlong := le_length_of_headerPath (by omega) (by rw [hlength]; decide) hnul
    ((encodeHeader_fields h).2.2 _ _ (.inl le_rfl)) hread
  exact absurd hlong (by decide)

end Remanence.Format
