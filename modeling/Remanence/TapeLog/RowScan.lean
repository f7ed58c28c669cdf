import Remanence.TapeLog.TornTail

/-!
# Row scans of a validated log

A row scan reads only structural records. A second decoder runs ahead to the closing record of
each group, because the rows of a finalization plan describe files that are not on the tape.
-/

namespace Remanence.TapeLog

open Foundation Parity Crc64 List

/-- Body of a frame whose payload is skipped while its structural section is
intact. -/
def Decoder.readRowBody (decoder : Decoder) (start after : Bytes) (tag : Tag) (s p : ℕ) :
    Except Fault Step :=
  let body := after.take (s+8)
  if body.length=s+8 ∧ crc64Xz (slice body 0 s)=readU64Le body s then do
    let record ← decode tag (slice body 0 s)
    rejectIf (((after.drop (s+8+p)).take 8).length≠8) (.invalid "row snapshot changed during scan")
    let stop ← orElseError (checkedAdd64 decoder.offset (UInt64.ofNat (frameOverhead+s+p)))
      .overflow
    let expected ← orElseError (checkedAdd64 (readU64Le start 12) 1) .overflow
    return .frame ⟨decoder.offset,stop,readU64Le start 12,record,[],slice start 0 20,slice body 0 s,
      false⟩ ⟨after.drop (s+p+16),stop,expected⟩
  else decoder.readBody start after tag s p

def Frame.asRow (f : Frame) : Frame := { f with payload := [],payloadValidated := false }

def Step.asRow : Step → Step
  | .frame f next => .frame { f with payload := [],payloadValidated := false } next
  | .stop tail => .stop tail

/-- Payloads are skipped only between two intact frame starts. -/
def Decoder.nextRowFrame (decoder : Decoder) : Except TapeLogError Step :=
  let start := decoder.rest.take prefixLen
  let s := (readU32Le start 4).toNat
  let p := (readU32Le start 8).toNat
  Step.asRow <$> (if validPrefix start=true then do
      let _ ← decoder.refuse none
        (orElseError (checkedAdd64 decoder.offset (UInt64.ofNat (frameOverhead+s+p))) .overflow)
      if validPrefix ((decoder.rest.drop (frameOverhead+s+p)).take prefixLen)=true then
        decoder.refuse (some (readU64Le start 12)) (do
          let (tag,s,p) ← decoder.readPrefix start
          decoder.readRowBody start (decoder.rest.drop prefixLen) tag s p)
      else decoder.nextFrame
    else decoder.nextFrame)

variable {decoder : Decoder} {f : Frame}

theorem IntactFrame.readRowBody_eq {expected next : UInt64} {start body after : Bytes} {tag : Tag}
    {s p : ℕ} (h : IntactFrame decoder.offset expected start body tag s p f next)
    (htake : after.take (s+8)=body.take (s+8)) (hlong : s+p+16 ≤ after.length) :
    decoder.readRowBody start after tag s p=
      .ok (.frame f.asRow ⟨after.drop (s+p+16),f.stop,next⟩) := by
  have hlen := h.length_body
  have hcut : (body.take (s+8)).length=s+8 := by rw [length_take]; omega
  have hcrc : crc64Xz (slice (body.take (s+8)) 0 s)=readU64Le (body.take (s+8)) s := by
    by_contra hbad
    have hnone := h.badSection_take (k := s+8) (by omega)
    rw [badSection,if_pos ⟨by omega,hbad⟩] at hnone
    cases hnone
  have hslice : slice (body.take (s+8)) 0 s=slice body 0 s := by
    have := slice_take_append [] (by omega : 0+s ≤ s+8) (by omega : s+8 ≤ body.length)
    rwa [append_nil] at this
  have htrailer : ((after.drop (s+8+p)).take 8).length=8 := by
    rw [length_take,length_drop]
    omega
  have hframe := h.frame
  unfold Decoder.readRowBody
  simp only [htake]
  rw [if_pos ⟨hcut,hcrc⟩,hslice,h.record,htrailer,h.stop,h.following,hframe]
  rfl

variable {offset expected next : UInt64}

theorem IntactFrame.validPrefix_start {start body : Bytes}
    {tag : Tag} {s p : ℕ} (h : IntactFrame offset expected start body tag s p f next) :
    validPrefix start=true := by
  obtain ⟨hversion,htag,-,-,hs,hp,hsize⟩ := readPrefix_eq_ok.mp h.fields
  have hlen := h.length_start
  have hfirst := slice_of_readU16Le (by rw [hlen]; decide) hversion
  simp [validPrefix,hlen,hfirst,htag,hs,hp,hsize,h.crc_start,Except.isOk,Except.toBool]

theorem IntactFrame.nextRowFrame_skip {start body after : Bytes}
    {tag : Tag} {s p : ℕ} (h : IntactFrame offset expected start body tag s p f next)
    (htake : after.take (s+8)=body.take (s+8)) (hlong : s+p+16 ≤ after.length)
    (hfollowed : validPrefix ((after.drop (s+p+16)).take prefixLen)=true) :
    (Decoder.mk (start++after) offset expected).nextRowFrame=
      .ok (.frame f.asRow ⟨after.drop (s+p+16),f.stop,next⟩) := by
  have hstart : (start++after).take prefixLen=start := take_left' h.length_start
  have hdrop : (start++after).drop (frameOverhead+s+p)=after.drop (s+p+16) := by
    rw [drop_append,drop_of_length_le,h.length_start,nil_append,frameOverhead]
    · congr 1
      omega
    · rw [h.length_start,frameOverhead]
      omega
  obtain ⟨-,-,-,-,hs,hp,-⟩ := readPrefix_eq_ok.mp h.fields
  have hfields : (Decoder.mk (start++after) offset expected).readPrefix start=.ok (tag,s,p) :=
    readPrefix_eq_ok.mpr (readPrefix_eq_ok.mp h.fields)
  have hbody := @readRowBody_eq ⟨start++after,offset,expected⟩ f expected next start body after tag
    s p h htake hlong
  unfold Decoder.nextRowFrame
  dsimp only
  rw [hstart,if_pos h.validPrefix_start,hs,hp,h.stop,orElseError_some,hdrop]
  rw [if_pos hfollowed,drop_left' h.length_start,hfields,ok_bind]
  rw [hbody]
  rfl

theorem nextRowFrame_of_nextFrame {next : Decoder} (h : decoder.nextFrame=.ok (.frame f next)) :
    decoder.nextRowFrame=.ok (.frame f.asRow next) := by
  obtain ⟨start,body,tag,s,p,hintact,hbytes,hnext⟩ := intact_of_nextFrame h
  have hlen := hintact.length_body
  have hdrop : (body++next.rest).drop (s+p+16)=next.rest := drop_left' hlen
  obtain ⟨rest,offset,expected⟩ := decoder
  subst hbytes
  by_cases hfollowed : validPrefix (next.rest.take prefixLen)=true
  · have hskip := @IntactFrame.nextRowFrame_skip f offset expected _ start body (body++next.rest) tag
      s p hintact (take_append_of_le_length (by omega)) (by rw [length_append]; omega)
      (by rwa [hdrop])
    rw [hskip,hdrop,←hnext]
  · -- the full decoder reads the last frame
    obtain ⟨-,-,-,-,hs,hp,-⟩ := readPrefix_eq_ok.mp hintact.fields
    have hbehind : (start++(body++next.rest)).drop (frameOverhead+s+p)=next.rest := by
      rw [←append_assoc]
      exact drop_left' hintact.length_eq
    unfold Decoder.nextRowFrame
    dsimp only
    rw [take_left' hintact.length_start,if_pos hintact.validPrefix_start,hs,hp,hintact.stop,
      orElseError_some,hbehind]
    rw [if_neg hfollowed,h]
    rfl

theorem nextRowFrame_nil (h : decoder.rest=[]) : decoder.nextRowFrame=.ok (.stop .complete) := by
  obtain ⟨rest,offset,expected⟩ := decoder
  subst h
  rfl

def Frame.fileRow (f : Frame) : Option TapeFileEntry :=
  match f.record with
  | .initialized init => some init.bot
  | .payloadContinuation ⟨_,.fileRow row⟩ => some row
  | _ => none

structure RowsCursor where
  decoder : Decoder
  /-- Decoder that has passed the closing record of the current group. -/
  boundary : Decoder
  plan : Bool
  groupEnd : UInt64

namespace RowsCursor

def findCloser : ℕ → RowsCursor → Except TapeLogError RowsCursor
  | 0,cursor => .error ⟨cursor.boundary.offset,none,.overflow⟩
  | fuel+1,cursor => do
    match ← cursor.boundary.nextRowFrame with
    | .stop _ => return cursor
    | .frame close next =>
      if close.record.closing=true then
        return { cursor with boundary := next,plan := close.record.isPlan,groupEnd := close.stop }
      else findCloser fuel { cursor with boundary := next }

def enter (cursor : RowsCursor) (f : Frame) : Except TapeLogError RowsCursor :=
  if f.offset ≥ cursor.groupEnd then findCloser (cursor.boundary.rest.length+1) cursor
  else .ok cursor

def visible (cursor : RowsCursor) (f : Frame) : Option TapeFileEntry :=
  if cursor.plan=true then none else f.fileRow

def nextEntryLoop : ℕ → RowsCursor → Except TapeLogError (Option TapeFileEntry×RowsCursor)
  | 0,cursor => .error ⟨cursor.decoder.offset,none,.overflow⟩
  | fuel+1,cursor => do
    match ← cursor.decoder.nextRowFrame with
    | .stop _ => return (none,cursor)
    | .frame f next =>
      let entered ← enter { cursor with decoder := next } f
      match entered.visible f with
      | some row => return (some row,entered)
      | none => nextEntryLoop fuel entered

def nextEntry (cursor : RowsCursor) : Except TapeLogError (Option TapeFileEntry×RowsCursor) :=
  nextEntryLoop (cursor.decoder.rest.length+1) cursor

def drain : ℕ → RowsCursor → Except TapeLogError (List TapeFileEntry)
  | 0,cursor => .error ⟨cursor.decoder.offset,none,.overflow⟩
  | fuel+1,cursor => do
    match ← cursor.nextEntry with
    | (none,_) => return []
    | (some row,next) => return row::(←drain fuel next)

def visitLoop : ℕ → RowsCursor → Except TapeLogError (List TapeFileEntry)
  | 0,cursor => .error ⟨cursor.decoder.offset,none,.overflow⟩
  | fuel+1,cursor => do
    match ← cursor.decoder.nextRowFrame with
    | .stop _ => return []
    | .frame f next =>
      let entered ← enter { cursor with decoder := next } f
      return (entered.visible f).toList++(←visitLoop fuel entered)

end RowsCursor

/-- Decoders at the start of the closed prefix of a log. -/
def rowsCursor (log : Bytes) (summary : TapeSummary) : RowsCursor :=
  ⟨.new (log.take summary.closedEnd.toNat),.new (log.take summary.closedEnd.toNat),false,0⟩

def visitFileRows (log : Bytes) (summary : TapeSummary) :
    Except TapeLogError (List TapeFileEntry) :=
  RowsCursor.visitLoop (log.length+1) (rowsCursor log summary)

def cursorFileRows (log : Bytes) (summary : TapeSummary) :
    Except TapeLogError (List TapeFileEntry) :=
  RowsCursor.drain (log.length+1) (rowsCursor log summary)

def groupRows (rows : List TapeFileEntry) (close : Record) : List TapeFileEntry :=
  if close.isPlan=true then [] else rows

def visibleRows : List TapeFileEntry → List Frame → List TapeFileEntry
  | _,[] => []
  | opened,f::frames =>
    if f.record.closing=true then
      groupRows (opened++f.fileRow.toList) f.record++visibleRows [] frames
    else visibleRows (opened++f.fileRow.toList) frames

theorem filterMap_cons_toList {α β : Type} (g : α → Option β) (a : α) (l : List α) :
    (a::l).filterMap g=(g a).toList++l.filterMap g := by
  cases h : g a <;> simp [h]

variable {frames : List Frame}

theorem visibleRows_group {opened : List TapeFileEntry} {body : List Frame} {close : Frame}
    (hbody : ∀ f ∈ body, f.record.closing=false) (hclose : close.record.closing=true) :
    visibleRows opened (body++close::frames)=
      groupRows (opened++(body++[close]).filterMap Frame.fileRow) close.record++
        visibleRows [] frames := by
  induction body generalizing opened with
  | nil =>
    rw [nil_append,visibleRows,if_pos hclose,nil_append,filterMap_cons_toList,
      filterMap_nil,append_nil]
  | cons f body ih =>
    have hf : ¬f.record.closing=true := by
      rw [hbody f mem_cons_self]
      exact Bool.false_ne_true
    rw [cons_append,visibleRows,if_neg hf,
      ih fun g hg => hbody g (mem_cons_of_mem _ hg),cons_append,filterMap_cons_toList,
      append_assoc]

variable {fuel : ℕ} {cursor : RowsCursor}

theorem findCloser_eq {body : List Frame} {close : Frame} {after : Decoder}
    (hreads : Reads cursor.boundary (body++[close]) after)
    (hbody : ∀ f ∈ body, f.record.closing=false) (hclose : close.record.closing=true)
    (hfuel : body.length < fuel) :
    cursor.findCloser fuel=.ok
      { cursor with boundary := after,plan := close.record.isPlan,groupEnd := close.stop } := by
  induction body generalizing fuel cursor with
  | nil =>
    obtain ⟨fuel,rfl⟩ : ∃ n, fuel=n+1 := ⟨fuel-1,by omega⟩
    obtain _ | ⟨head,tail⟩ := hreads
    cases tail
    rw [RowsCursor.findCloser,nextRowFrame_of_nextFrame head,ok_bind]
    dsimp only [Frame.asRow]
    rw [if_pos hclose]
    rfl
  | cons f body ih =>
    rw [length_cons] at hfuel
    obtain ⟨fuel,rfl⟩ : ∃ n, fuel=n+1 := ⟨fuel-1,by omega⟩
    obtain _ | ⟨head,tail⟩ := hreads
    have hf : ¬f.record.closing=true := by
      rw [hbody f mem_cons_self]
      exact Bool.false_ne_true
    rw [RowsCursor.findCloser,nextRowFrame_of_nextFrame head,ok_bind]
    dsimp only [Frame.asRow]
    rw [if_neg hf,ih tail (fun g hg => hbody g (mem_cons_of_mem _ hg)) (by omega)]

def Closed (frames : List Frame) : Prop := ∀ f, frames.getLast?=some f → f.record.closing=true

theorem Closed.split (h : Closed frames) (hne : frames≠[]) :
    ∃ body close rest, frames=body++close::rest ∧ (∀ f ∈ body, f.record.closing=false) ∧
      close.record.closing=true ∧ Closed rest := by
  have hlast := h _ (getLast?_eq_some_getLast hne)
  have hsome : (frames.find? fun f => f.record.closing).isSome := by
    rw [find?_isSome]
    exact ⟨_,getLast_mem hne,hlast⟩
  obtain ⟨close,hclose⟩ := Option.isSome_iff_exists.mp hsome
  obtain ⟨hclosing,body,rest,rfl,hbody⟩ := find?_eq_some_iff_append.mp hclose
  refine ⟨body,close,rest,rfl,fun f hf => by simpa using hbody f hf,hclosing,fun f hf => h f ?_⟩
  rw [getLast?_append,getLast?_cons,hf]
  rfl

theorem offset_of_nextFrame {next : Decoder} (h : decoder.nextFrame=.ok (.frame f next)) :
    f.offset=decoder.offset ∧ next.offset=f.stop ∧ f.offset.toNat < f.stop.toNat := by
  obtain ⟨start,body,tag,s,p,hintact,-,hoffset⟩ := intact_of_nextFrame h
  have hstart : f.offset=decoder.offset := by rw [hintact.frame]
  refine ⟨hstart,hoffset,?_⟩
  rw [hstart,hintact.toNat_stop,hintact.length_eq,frameOverhead,prefixLen]
  omega

variable {a b : Decoder}

theorem Reads.offset_lt (h : Reads a frames b) (hf : f ∈ frames) :
    f.offset.toNat < b.offset.toNat := by
  induction h with
  | nil => cases hf
  | cons head tail ih =>
    rcases mem_cons.mp hf with rfl | hf
    · obtain ⟨-,hnext,hlt⟩ := offset_of_nextFrame head
      have hle := tail.offset_le
      rw [hnext] at hle
      omega
    · exact ih hf

theorem Reads.offset_last (h : Reads a (frames++[f]) b) : b.offset=f.stop := by
  obtain ⟨c,-,hlast⟩ := h.split
  obtain _ | ⟨head,tail⟩ := hlast
  cases tail
  exact (offset_of_nextFrame head).2.1

theorem Reads.length_le (h : Reads a frames b) : frames.length+b.rest.length ≤ a.rest.length := by
  induction h with
  | nil => simp
  | cons head _ ih =>
    have hlen := length_nextFrame head
    rw [length_cons]
    omega

structure Scanning (cursor : RowsCursor) (rows : List TapeFileEntry) : Prop where
  exists_reads : ∃ group rest last, Reads cursor.decoder group cursor.boundary ∧
    Reads cursor.boundary rest last ∧ last.rest=[] ∧ Closed rest ∧
    (∀ f ∈ group, f.offset.toNat < cursor.groupEnd.toNat) ∧
    cursor.groupEnd.toNat ≤ cursor.boundary.offset.toNat ∧
    rows=(group.filterMap cursor.visible)++visibleRows [] rest

theorem filterMap_visible (cursor : RowsCursor) (frames : List Frame) (close : Record)
    (h : cursor.plan=close.isPlan) :
    frames.filterMap cursor.visible=groupRows (frames.filterMap Frame.fileRow) close := by
  cases hplan : close.isPlan with
  | true =>
    rw [groupRows,if_pos hplan,filterMap_eq_nil_iff]
    intro f _
    rw [RowsCursor.visible,if_pos (h.trans hplan)]
  | false =>
    have hvisible : cursor.visible=Frame.fileRow := by
      funext f
      rw [RowsCursor.visible,if_neg (by rw [h,hplan]; exact Bool.false_ne_true)]
    rw [groupRows,if_neg (by rw [hplan]; exact Bool.false_ne_true),hvisible]

variable {rows : List TapeFileEntry}

/-- The end of the closed prefix, or a frame whose row is delivered unless its group is a plan. -/
theorem Scanning.step (h : Scanning cursor rows) :
    (cursor.decoder.nextRowFrame=.ok (.stop .complete) ∧ rows=[]) ∨
      ∃ f next entered later, cursor.decoder.nextRowFrame=.ok (.frame f next) ∧
        RowsCursor.enter { cursor with decoder := next } f=.ok entered ∧
        rows=(entered.visible f).toList++later ∧ Scanning entered later ∧
        entered.decoder.rest.length < cursor.decoder.rest.length := by
  obtain ⟨group,rest,last,hgroup,hrest,hend,hclosed,hinside,hle,hrows⟩ := h.exists_reads
  obtain ⟨decoder,boundary,plan,groupEnd⟩ := cursor
  dsimp only at hgroup hrest hinside hle hrows ⊢
  cases hgroup with
  | @cons _ next _ f group head tail =>
    -- inside a group: the boundary decoder stays
    right
    have hoffset := hinside f mem_cons_self
    have henter : RowsCursor.enter ⟨next,boundary,plan,groupEnd⟩ f.asRow=
        .ok ⟨next,boundary,plan,groupEnd⟩ := by
      rw [RowsCursor.enter,if_neg]
      exact fun hge => absurd (UInt64.le_iff_toNat_le.mp hge) (not_le.mpr hoffset)
    refine ⟨_,next,_,group.filterMap (RowsCursor.visible ⟨next,boundary,plan,groupEnd⟩)++
      visibleRows [] rest,nextRowFrame_of_nextFrame head,henter,?_,⟨group,rest,last,tail,hrest,hend,
        hclosed,fun g hg => hinside g (mem_cons_of_mem _ hg),hle,rfl⟩,length_nextFrame head⟩
    rw [hrows,filterMap_cons_toList,append_assoc]
    rfl
  | nil =>
    by_cases hne : rest=[]
    · -- behind the last group
      left
      subst hne
      cases hrest
      exact ⟨nextRowFrame_nil hend,hrows⟩
    · -- in front of a group: the boundary decoder passes its closing record
      right
      obtain ⟨body,close,later,rfl,hbody,hclose,hlater⟩ := hclosed.split hne
      rw [show body++close::later=body++[close]++later by simp] at hrest
      obtain ⟨after,hgroup,hafter⟩ := hrest.split
      have hstop := hgroup.offset_last
      have hfuel : body.length < decoder.rest.length+1 := by
        have := hgroup.length_le
        rw [length_append,length_singleton] at this
        omega
      rw [filterMap_nil,nil_append,visibleRows_group hbody hclose,nil_append] at hrows
      have hinside' : ∀ g ∈ body++[close], g.offset.toNat < close.stop.toNat := by
        intro g hg
        rw [←hstop]
        exact hgroup.offset_lt hg
      obtain ⟨f,group,hsplit⟩ : ∃ f group, body++[close]=f::group := by
        cases body with
        | nil => exact ⟨close,[],rfl⟩
        | cons f body => exact ⟨f,body++[close],rfl⟩
      have hall := hgroup
      rw [hsplit] at hgroup hrows hinside'
      obtain _ | @⟨_,next,_,_,_,head,tail⟩ := hgroup
      have henter : RowsCursor.enter ⟨next,decoder,plan,groupEnd⟩ f.asRow=
          .ok ⟨next,after,close.record.isPlan,close.stop⟩ := by
        have hge : f.asRow.offset ≥ groupEnd := by
          dsimp only [Frame.asRow]
          rw [(offset_of_nextFrame head).1]
          exact UInt64.le_iff_toNat_le.mpr hle
        rw [RowsCursor.enter,if_pos hge]
        exact findCloser_eq hall hbody hclose hfuel
      refine ⟨_,next,_,group.filterMap
        (RowsCursor.visible ⟨next,after,close.record.isPlan,close.stop⟩)++visibleRows [] later,
        nextRowFrame_of_nextFrame head,henter,?_,⟨group,later,last,tail,hafter,hend,hlater,
          fun g hg => hinside' g (mem_cons_of_mem _ hg),by rw [hstop],rfl⟩,
        length_nextFrame head⟩
      rw [hrows,←filterMap_visible ⟨next,after,close.record.isPlan,close.stop⟩ (f::group) close.record
        rfl,filterMap_cons_toList,append_assoc]
      rfl

theorem Scanning.visitLoop_eq (h : Scanning cursor rows)
    (hfuel : cursor.decoder.rest.length < fuel) : cursor.visitLoop fuel=.ok rows := by
  induction fuel generalizing cursor rows with
  | zero => exact absurd hfuel (Nat.not_lt_zero _)
  | succ fuel ih =>
    rw [RowsCursor.visitLoop]
    rcases h.step with ⟨hstop,rfl⟩ | ⟨f,next,entered,later,hframe,henter,rfl,hlater,hlt⟩
    · rw [hstop]
      rfl
    · rw [hframe,ok_bind]
      dsimp only
      rw [henter,ok_bind,ih hlater (by omega)]
      rfl

theorem Scanning.nextEntryLoop_eq (h : Scanning cursor rows)
    (hfuel : cursor.decoder.rest.length < fuel) :
    (rows=[] ∧ ∃ next, cursor.nextEntryLoop fuel=.ok (none,next)) ∨
      ∃ row later next, rows=row::later ∧ cursor.nextEntryLoop fuel=.ok (some row,next) ∧
        Scanning next later ∧ next.decoder.rest.length < cursor.decoder.rest.length := by
  induction fuel generalizing cursor rows with
  | zero => exact absurd hfuel (Nat.not_lt_zero _)
  | succ fuel ih =>
    rw [RowsCursor.nextEntryLoop]
    rcases h.step with ⟨hstop,rfl⟩ | ⟨f,next,entered,later,hframe,henter,rfl,hlater,hlt⟩
    · rw [hstop]
      exact .inl ⟨rfl,cursor,rfl⟩
    · rw [hframe,ok_bind]
      dsimp only
      rw [henter,ok_bind]
      cases entered.visible f with
      | some row => exact .inr ⟨row,later,entered,rfl,rfl,hlater,hlt⟩
      | none =>
        rcases ih hlater (by omega) with hnone | ⟨row,rest,after,hrow,hloop,hafter,hlt'⟩
        · exact .inl hnone
        · exact .inr ⟨row,rest,after,hrow,hloop,hafter,by omega⟩

theorem Scanning.drain_eq (h : Scanning cursor rows) (hfuel : cursor.decoder.rest.length < fuel) :
    cursor.drain fuel=.ok rows := by
  induction fuel generalizing cursor rows with
  | zero => exact absurd hfuel (Nat.not_lt_zero _)
  | succ fuel ih =>
    rw [RowsCursor.drain,RowsCursor.nextEntry]
    rcases h.nextEntryLoop_eq (Nat.lt_succ_self _) with ⟨rfl,next,hloop⟩ |
      ⟨row,later,next,rfl,hloop,hlater,hlt⟩
    · rw [hloop]
      rfl
    · rw [hloop,ok_bind]
      dsimp only
      rw [ih hlater (by omega)]
      rfl

variable {env : LogServices}

/-- Both scans of a replayed log deliver the rows of the groups that its fold closed. -/
theorem scans_of_replay {log : Bytes} {summary : TapeSummary} {tail : Tail}
    (h : replay env log=.ok (summary,tail)) : ∃ frames fold,
      Fold.new.pushAll env frames=.ok fold ∧ fold.pending=none ∧ fold.summary=summary ∧
      visitFileRows log summary=.ok (visibleRows [] frames) ∧
      cursorFileRows log summary=.ok (visibleRows [] frames) := by
  obtain ⟨frames,stop,fold,t,hreads,hfold,hstop,hfinish⟩ := replay_eq_ok.mp h
  obtain ⟨tail',htail,-⟩ := (aligned_new.run hreads hfold).finish hstop
  rw [hfinish,Except.ok.injEq,Prod.mk.injEq] at htail
  obtain ⟨rfl,rfl⟩ := htail
  obtain ⟨pre,post,mid,rfl,hmid,hnone,hsame,-,hend⟩ := closed_split rfl hfold
  obtain ⟨b,hpre,-⟩ := hreads.split
  have hclosedEnd : fold.summary.closedEnd=b.offset := by
    rw [←hsame,(aligned_new.run hpre hmid).closed hnone]
  obtain ⟨hle,-,hcut⟩ := hpre.of_new
  have hrun := hcut []
  rw [append_nil,←hclosedEnd] at hrun
  have hclosed : Closed pre := by
    intro f hf
    rcases hend with rfl | ⟨init,g,rfl,hg⟩
    · cases hf
    · rw [getLast?_concat,Option.some.injEq] at hf
      rw [←hf]
      exact hg
  have hscan : Scanning (rowsCursor log fold.summary) (visibleRows [] pre) :=
    ⟨[],pre,_,.nil _,hrun,rfl,hclosed,by simp,Nat.zero_le _,rfl⟩
  have hfuel : (rowsCursor log fold.summary).decoder.rest.length < log.length+1 := by
    have : (log.take fold.summary.closedEnd.toNat).length ≤ log.length := by
      rw [length_take]
      omega
    exact Nat.lt_succ_of_le this
  exact ⟨pre,mid,hmid,hnone,hsame,hscan.visitLoop_eq hfuel,hscan.drain_eq hfuel⟩

end Remanence.TapeLog
