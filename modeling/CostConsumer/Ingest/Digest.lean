import CostConsumer.Foundation.JsonText
import CostConsumer.Ingest.Unmarshal
set_option autoImplicit false

/-!
The digest of an event. The receiver decodes an event into a struct with a fixed set of attributes
and the raw text of the data, and takes the digest of the struct written again.
-/

namespace CostConsumer.Ingest
open Foundation Foundation.JsonText

/-- A time, and the offset of the zone it is written in. -/
structure Moment where
  instant : Int
  offset : Int
  deriving DecidableEq

/-- RFC 3339 times. What was read, and the zero time, is read back from what is written for it. -/
structure TimeCodec where
  parse : String → Option Moment
  format : Moment → String
  parse_format : ∀ m, m = ⟨0,0⟩ ∨ (∃ s, parse s = some m) → parse (format m) = some m

def TimeCodec.instant? (codec : TimeCodec) (s : String) : Option Int := (codec.parse s).map (·.instant)

/-- The decoded struct; its time has a zone too. -/
structure Received where
  event : CloudEvent
  offset : Int
  deriving DecidableEq

section Decode
variable (codec : TimeCodec) (x : Text)

def dataText? : Option Text := ((x.members.filter fun m => sameKey "data" m.1).map (·.2)).getLast?

def nullText : Text := .word noSpaces ⟨"null".toList,by decide,by decide⟩

def dataText : Text := (dataText? x).getD nullText

def TimeCodec.read (m : Moment) : Document → Moment
  | .text s => (codec.parse s).getD m
  | _ => m

def moment : Moment := ((x.document.members?.getD []).values "time").foldl codec.read ⟨0,0⟩

def decodeEvent : Option Received :=
  (x.document.decode (cloudEventFields codec.instant?) (cloudEventOf codec.instant? fun _ => "")).map
    fun event => ⟨{ event with data := ((dataText? x).map fun t => String.ofList t.raw).getD "" },
      (moment codec x).offset⟩

end Decode

section Encode
variable (codec : TimeCodec) (r : Received)

def Received.attributes : List (String × String) :=
  [("specversion",r.event.specVersion),("type",r.event.type),("source",r.event.source),
    ("id",r.event.id),("time",codec.format ⟨r.event.time,r.offset⟩),("subject",r.event.subject),
    ("datacontenttype",r.event.dataContentType)]

def Received.extensions : List (String × String) :=
  [("osacresourceid",r.event.osacResourceID),("osacresourcetype",r.event.osacResourceType),
    ("osactenant",r.event.osacTenant),("osacproject",r.event.osacProject),("osactrace",r.event.osacTrace)]

def marshalText (s : String) : List Char := (Token.string (quote s.toList)).chars

def marshalRaw (data : String) : List Char :=
  if data = "" then "null".toList else compact false data.toList

def marshalField (name : String) (value : List Char) : List Char := marshalText name ++ ':' :: value

/-- `json.Marshal` of the struct; empty extensions are omitted. -/
def marshal : List Char :=
  let texts (fs : List (String × String)) := fs.map fun f => marshalField f.1 (marshalText f.2)
  let fields := texts (r.attributes codec) ++ marshalField "data" (marshalRaw r.event.data) ::
    texts (r.extensions.filter (·.2 ≠ ""))
  '\x7b' :: (fields.flatMap (',' :: ·)).tail ++ ['\x7d']

def cloudEventDigest {δ : Type} (sha256 : List Char → δ) : δ := sha256 (marshal codec r)

end Encode

/-! What is written is a JSON text again. -/

section Written
variable (codec : TimeCodec) (r : Received)

def textMember (f : String × String) : Member Text :=
  ⟨noSpaces,noSpaces,quote f.1.toList,noSpaces,.string noSpaces (quote f.2.toList)⟩

def marshalledMembers (data : Text) : List (Member Text) :=
  (r.attributes codec).map textMember ++
    ⟨noSpaces,noSpaces,quote "data".toList,noSpaces,data⟩ ::
    (r.extensions.filter (·.2 ≠ "")).map textMember

theorem textMember_written (f : String × String) :
    (textMember f).written = (quote f.1.toList,[.string (quote f.2.toList)]) := by
  simp [textMember,Member.written,Text.tokens,Text.laid,Token.escape,escape_quote]

theorem textMember_chars (f : String × String) :
    (textMember f).chars = marshalField f.1 (marshalText f.2) := by
  simp [Member.chars,textMember_written,marshalField,marshalText]

theorem marshal_eq {data : Text} (hdata : marshalRaw r.event.data = data.tokens.flatMap Token.chars) :
    marshal codec r =
      (Text.object noSpaces (marshalledMembers codec r data) noSpaces).tokens.flatMap Token.chars := by
  have hfield : (⟨noSpaces,noSpaces,quote "data".toList,noSpaces,data⟩ : Member Text).chars =
      marshalField "data" (marshalRaw r.event.data) := by
    rw [hdata,Member.chars,Member.written,escape_quote]
    rfl
  rw [object_chars,marshal,marshalledMembers]
  simp only [List.flatMap_append,List.flatMap_cons,List.flatMap_map,textMember_chars,hfield]

theorem texts_inj {fs gs : List (String × String)}
    (h : (fs.map textMember).map Member.written = (gs.map textMember).map Member.written) : fs = gs := by
  rw [List.map_map,List.map_map] at h
  refine List.map_injective_iff.mpr (fun f g hfg => ?_) h
  simp only [Function.comp_apply,textMember_written,Prod.mk.injEq,List.cons.injEq,Token.string.injEq,
    and_true] at hfg
  exact Prod.ext (String.toList_injective (quote_injective hfg.1))
    (String.toList_injective (quote_injective hfg.2))

theorem omitted_inj {fs gs : List (String × String)} (hnames : fs.map (·.1) = gs.map (·.1))
    (hnd : (fs.map (·.1)).Nodup) (h : fs.filter (·.2 ≠ "") = gs.filter (·.2 ≠ "")) : fs = gs := by
  induction fs generalizing gs with
  | nil => simpa using hnames.symm
  | cons f fs ih =>
    cases gs with
    | nil => cases hnames
    | cons g gs =>
      simp only [List.map_cons,List.cons.injEq] at hnames
      obtain ⟨hname,hnames⟩ := hnames
      rw [List.map_cons,List.nodup_cons] at hnd
      -- a name is in the rest of neither list
      have hout {l : List (String × String)} {e : String × String} (hl : l.map (·.1) = fs.map (·.1))
          (he : e ∈ l.filter (·.2 ≠ "")) : e.1 ≠ f.1 := by
        intro heq
        rw [← heq,← hl] at hnd
        exact hnd.1 (List.mem_map_of_mem (List.mem_filter.mp he).1)
      by_cases hf : f.2 = "" <;> by_cases hg : g.2 = "" <;>
        simp only [List.filter_cons,hf,hg,ne_eq,not_true_eq_false,not_false_eq_true,decide_true,
          decide_false,Bool.false_eq_true,if_true,if_false] at h
      · rw [Prod.ext hname (hf.trans hg.symm),ih hnames hnd.2 h]
      · exact absurd hname.symm (hout rfl (h ▸ List.mem_cons_self))
      · exact absurd rfl (hout hnames.symm (h ▸ List.mem_cons_self))
      · obtain ⟨hfg,h⟩ := List.cons.inj h
        rw [hfg,ih hnames hnd.2 h]

end Written

section Decoded
variable {codec : TimeCodec} {x y : Text} {a b : Received}

theorem decodeEvent_data (h : decodeEvent codec x = some a) :
    marshalRaw a.event.data = (dataText x).tokens.flatMap Token.chars := by
  obtain ⟨event,-,rfl⟩ := Option.map_eq_some_iff.mp h
  unfold dataText
  cases dataText? x with
  | none => rfl
  | some t =>
    have hne : String.ofList t.raw ≠ "" := by
      intro he
      exact t.raw_ne_nil (by simpa using congrArg String.toList he)
    simp only [Option.map_some,Option.getD_some]
    rw [marshalRaw,if_neg hne,String.toList_ofList,compact_raw]

theorem decodeEvent_time (h : decodeEvent codec x = some a) :
    (⟨a.event.time,a.offset⟩ : Moment) = moment codec x := by
  obtain ⟨event,he,rfl⟩ := Option.map_eq_some_iff.mp h
  obtain ⟨ms,hms,-,rfl⟩ := Document.decode_eq_some.mp he
  have hinstant : ms.time codec.instant? "time" = ((ms.values "time").foldl codec.read ⟨0,0⟩).instant := by
    unfold Members.time
    change List.foldl _ (Moment.mk 0 0).instant _ = _
    refine List.foldl_hom Moment.instant fun m v => ?_
    cases v with
    | text s => cases hs : codec.parse s <;> simp [TimeCodec.instant?,TimeCodec.read,hs]
    | _ => rfl
  have hmoment : moment codec x = (ms.values "time").foldl codec.read ⟨0,0⟩ := by
    rw [moment,hms,Option.getD_some]
  simp only [cloudEventOf,hinstant,hmoment]

theorem moment_read (codec : TimeCodec) (x : Text) :
    moment codec x = ⟨0,0⟩ ∨ ∃ s, codec.parse s = some (moment codec x) := by
  have hread (vs : List Document) (m : Moment) (hm : m = ⟨0,0⟩ ∨ ∃ s, codec.parse s = some m) :
      vs.foldl codec.read m = ⟨0,0⟩ ∨ ∃ s, codec.parse s = some (vs.foldl codec.read m) := by
    induction vs generalizing m with
    | nil => exact hm
    | cons v vs ih =>
      refine ih (codec.read m v) ?_
      cases v with
      | text s =>
        cases hs : codec.parse s with
        | none => simpa [TimeCodec.read,hs] using hm
        | some m' => exact .inr ⟨s,by simp [TimeCodec.read,hs]⟩
      | _ => exact hm
  exact hread _ _ (.inl rfl)

theorem format_moment_inj (h : codec.format (moment codec x) = codec.format (moment codec y)) :
    moment codec x = moment codec y := by
  have hx := codec.parse_format _ (moment_read codec x)
  rw [h,codec.parse_format _ (moment_read codec y)] at hx
  exact (Option.some.inj hx).symm

def Received.known (r : Received) : CloudEvent := { r.event with data := "" }

/-- Two events are written alike if the kept attributes agree, with the zone of the time, and the
data has the same tokens. -/
theorem marshal_eq_iff (hx : decodeEvent codec x = some a) (hy : decodeEvent codec y = some b) :
    marshal codec a = marshal codec b ↔
      a.known = b.known ∧ a.offset = b.offset ∧ (dataText x).tokens = (dataText y).tokens := by
  constructor
  · intro h
    rw [marshal_eq codec a (decodeEvent_data hx),marshal_eq codec b (decodeEvent_data hy)] at h
    have hmembers := object_written (written_chars_inj h)
    simp only [marshalledMembers,List.map_append,List.map_cons] at hmembers
    obtain ⟨hattributes,hrest⟩ := List.append_inj hmembers (by simp [Received.attributes])
    obtain ⟨hdata,hextensions⟩ := List.cons.inj hrest
    have hattributes := texts_inj hattributes
    have hextensions : a.extensions = b.extensions :=
      omitted_inj rfl (by simp [Received.extensions]) (texts_inj hextensions)
    simp only [Received.attributes,List.cons.injEq,Prod.mk.injEq,true_and,and_true] at hattributes
    simp only [Received.extensions,List.cons.injEq,Prod.mk.injEq,true_and,and_true] at hextensions
    obtain ⟨hspec,htype,hsource,hid,htime,hsubject,hcontent⟩ := hattributes
    rw [decodeEvent_time hx,decodeEvent_time hy] at htime
    have hmoment := format_moment_inj htime
    rw [← decodeEvent_time hx,← decodeEvent_time hy,Moment.mk.injEq] at hmoment
    refine ⟨?_,hmoment.2,congrArg Prod.snd hdata⟩
    simp only [Received.known,hspec,htype,hsource,hid,hmoment.1,hsubject,hcontent,hextensions]
  · rintro ⟨hknown,hoffset,hdata⟩
    simp only [Received.known,CloudEvent.mk.injEq] at hknown
    simp only [marshal,Received.attributes,Received.extensions,decodeEvent_data hx,decodeEvent_data hy,
      hknown,hoffset,hdata]

theorem event_eq_of_marshal (hx : decodeEvent codec x = some a) (hy : decodeEvent codec y = some b)
    (ha : a.event.data ≠ "" ∧ compact false a.event.data.toList = a.event.data.toList)
    (hb : b.event.data ≠ "" ∧ compact false b.event.data.toList = b.event.data.toList)
    (h : marshal codec a = marshal codec b) : a.event = b.event := by
  obtain ⟨hknown,-,htokens⟩ := (marshal_eq_iff hx hy).mp h
  have hraw : marshalRaw a.event.data = marshalRaw b.event.data := by
    rw [decodeEvent_data hx,decodeEvent_data hy,htokens]
  rw [marshalRaw,marshalRaw,if_neg ha.1,if_neg hb.1,ha.2,hb.2] at hraw
  have hdata := String.toList_injective hraw
  obtain ⟨⟨⟩,_⟩ := a
  obtain ⟨⟨⟩,_⟩ := b
  simp only [Received.known,CloudEvent.mk.injEq] at hknown hdata ⊢
  simp only [hknown,hdata,and_self]

end Decoded

/-! The event a text denotes. -/

def isKnown (name : String) : Bool :=
  ((cloudEventFields fun _ => none).map (·.1)).any (sameKey · name)

/-- A CloudEvent whatever its text: the attributes the receiver knows, the data as a JSON value, and
all other attributes. -/
structure Denoted (ν : Type) where
  known : CloudEvent
  data : Value ν
  others : String → Option (Value ν)

section Denoted
variable {ν δ : Type} (number : List Char → ν)

def otherAttributes (x : Text) (name : String) : Option (Value ν) :=
  if isKnown name then none else lastValue (x.members.map fun m => (m.1,m.2.denote number)) name

def denoted (x : Text) (r : Received) : Denoted ν :=
  ⟨r.known,(dataText x).denote number,otherAttributes number x⟩

variable {codec : TimeCodec} {sha256 : List Char → δ} {x y : Text} {a b : Received}

/-- Two texts have the same digest exactly if they denote the same event, unless the known
attributes and the value of the data agree: then the zone of the time and the spelling of the data
have to agree exactly if the other attributes do. -/
theorem digest_canonical_iff (hsha : Function.Injective sha256) (hx : decodeEvent codec x = some a)
    (hy : decodeEvent codec y = some b) :
    (cloudEventDigest codec a sha256 = cloudEventDigest codec b sha256 ↔
        denoted number x a = denoted number y b) ↔
      (a.known = b.known ∧ (dataText x).denote number = (dataText y).denote number →
        (a.offset = b.offset ∧ (dataText x).tokens = (dataText y).tokens ↔
          otherAttributes number x = otherAttributes number y)) := by
  have hdigest : cloudEventDigest codec a sha256 = cloudEventDigest codec b sha256 ↔
      a.known = b.known ∧ a.offset = b.offset ∧ (dataText x).tokens = (dataText y).tokens :=
    hsha.eq_iff.trans (marshal_eq_iff hx hy)
  have hvalue (ht : (dataText x).tokens = (dataText y).tokens) :
      (dataText x).denote number = (dataText y).denote number :=
    (tokens_inj number _ _ (congrArg (· ++ []) ht)).1
  have hdenoted : denoted number x a = denoted number y b ↔ a.known = b.known ∧
      (dataText x).denote number = (dataText y).denote number ∧
        otherAttributes number x = otherAttributes number y := by
    rw [denoted,denoted,Denoted.mk.injEq]
  rw [hdigest,hdenoted]
  constructor
  · rintro h ⟨hknown,hdata⟩
    constructor
    · rintro ⟨hoffset,htokens⟩
      exact (h.mp ⟨hknown,hoffset,htokens⟩).2.2
    · intro hothers
      exact (h.mpr ⟨hknown,hdata,hothers⟩).2
  · intro h
    constructor
    · rintro ⟨hknown,hoffset,htokens⟩
      have hdata := hvalue htokens
      exact ⟨hknown,hdata,(h ⟨hknown,hdata⟩).mp ⟨hoffset,htokens⟩⟩
    · rintro ⟨hknown,hdata,hothers⟩
      exact ⟨hknown,(h ⟨hknown,hdata⟩).mpr hothers⟩

end Denoted

section Samples

def sampleCodec : TimeCodec where
  parse := fun s =>
    if s = "2026-02-01T00:00:00Z" then some ⟨1,0⟩
    else if s = "2026-02-01T01:00:00+01:00" then some ⟨1,60⟩
    else if s = "0001-01-01T00:00:00Z" then some ⟨0,0⟩
    else none
  format := fun m =>
    if m = ⟨1,0⟩ then "2026-02-01T00:00:00Z"
    else if m = ⟨1,60⟩ then "2026-02-01T01:00:00+01:00"
    else "0001-01-01T00:00:00Z"
  parse_format := by
    rintro m (rfl | ⟨s,hs⟩)
    · decide
    · split_ifs at hs <;> cases hs <;> decide

def stringText (s : String) : Text := .string noSpaces (quote s.toList)

def oneText : Text := .word noSpaces ⟨['1'],by decide,by decide⟩

def twoText : Text := .word noSpaces ⟨['2'],by decide,by decide⟩

def objectText (space : Spaces) (fields : List (String × Text)) : Text :=
  .object noSpaces (fields.map fun f => ⟨space,noSpaces,quote f.1.toList,noSpaces,f.2⟩) noSpaces

def eventText (time : String) (data : Text) (others : List (String × Text)) : Text :=
  objectText noSpaces ([("specversion",stringText "1.0"),("type",stringText "gpu"),
    ("source",stringText "collector"),("id",stringText "e-1"),("time",stringText time),
    ("data",data)] ++ others)

def utcTime : String := "2026-02-01T00:00:00Z"

def zonedTime : String := "2026-02-01T01:00:00+01:00"

def lineBreak : Spaces := ⟨['\n'],rfl⟩

def orderedData (space : Spaces) : Text := objectText space [("a",oneText),("b",twoText)]

def reorderedData : Text := objectText noSpaces [("b",twoText),("a",oneText)]

def commentText (s : String) : Text :=
  eventText utcTime (orderedData noSpaces) [("comment",stringText s)]

def sampleReceived (data : String) (offset : Int) : Received :=
  ⟨⟨"1.0","gpu","collector","e-1",1,"","",data,"","","","",""⟩,offset⟩

def orderedRaw : String := "\x7b\"a\":1,\"b\":2\x7d"

theorem eventText_document (time : String) (data : Text) (others : List (String × Text)) :
    (eventText time data others).document = .object ([("specversion",.text "1.0"),("type",.text "gpu"),
      ("source",.text "collector"),("id",.text "e-1"),("time",.text time),("data",data.document)] ++
      others.map fun f => (f.1,f.2.document)) := by
  have hmembers (fs : List (String × Text)) : documentMembers (fs.map fun f =>
      ⟨noSpaces,noSpaces,quote f.1.toList,noSpaces,f.2⟩) = fs.map fun f => (f.1,f.2.document) := by
    induction fs with
    | nil => rfl
    | cons f fs ih => simp [documentMembers,unquote_quote,ih]
  rw [eventText,objectText,Text.document,hmembers]
  simp [stringText,Text.document,unquote_quote]

theorem eventText_members (time : String) (data : Text) (others : List (String × Text)) :
    (eventText time data others).members = [("specversion",stringText "1.0"),("type",stringText "gpu"),
      ("source",stringText "collector"),("id",stringText "e-1"),("time",stringText time),("data",data)] ++
      others := by
  have hmembers (fs : List (String × Text)) : (objectText noSpaces fs).members = fs := by
    simp [objectText,Text.members,unquote_quote,Function.comp_def]
  rw [eventText,hmembers]

theorem decode_samples :
    decodeEvent sampleCodec (eventText utcTime (orderedData noSpaces) []) =
      some (sampleReceived orderedRaw 0) ∧
    decodeEvent sampleCodec (eventText utcTime (orderedData lineBreak) []) =
      some (sampleReceived "\x7b\"a\":1\n,\"b\":2\x7d" 0) ∧
    decodeEvent sampleCodec (eventText utcTime reorderedData []) =
      some (sampleReceived "\x7b\"b\":2,\"a\":1\x7d" 0) ∧
    decodeEvent sampleCodec (eventText zonedTime (orderedData noSpaces) []) =
      some (sampleReceived orderedRaw 60) ∧
    decodeEvent sampleCodec (commentText "x") = some (sampleReceived orderedRaw 0) ∧
    decodeEvent sampleCodec (commentText "y") = some (sampleReceived orderedRaw 0) := by
  simp only [commentText,decodeEvent,moment,dataText?,eventText_document,eventText_members]
  decide +kernel

theorem sample_names :
    (["specversion","type","source","id","time"].all (fun name => !sameKey "data" name) = true ∧
      sameKey "data" "data" = true) ∧
    ["specversion","type","source","id","time","data"].all isKnown = true ∧ ¬ isKnown "comment" = true := by
  decide +kernel

theorem dataText_event (time : String) (data : Text) : dataText (eventText time data []) = data := by
  have hnames := sample_names.1
  simp only [List.all_cons,List.all_nil,Bool.and_true,Bool.and_eq_true,Bool.not_eq_true_eq_eq_false] at hnames
  simp [dataText,dataText?,eventText_members,hnames]

theorem otherAttributes_event {ν : Type} (number : List Char → ν) (time : String) (data : Text) :
    otherAttributes number (eventText time data []) = fun _ => none := by
  funext name
  unfold otherAttributes
  split
  · rfl
  · rename_i hname
    have hne : ∀ known ∈ ["specversion","type","source","id","time","data"], known ≠ name :=
      fun known hmem he => hname (he ▸ List.all_eq_true.mp sample_names.2.1 known hmem)
    simp only [List.forall_mem_cons] at hne
    simp [lastValue,eventText_members,hne]

theorem otherAttributes_comment {ν : Type} (number : List Char → ν) (s : String) :
    otherAttributes number (commentText s) "comment" = some (.text s.toList) := by
  rw [otherAttributes,if_neg sample_names.2.2,commentText,eventText_members]
  simp [lastValue,stringText,Text.denote,unquote_quote]

theorem denote_reordered : (orderedData noSpaces).denote id = reorderedData.denote id := by
  have hswap {k k' : List Char} {v v' : Value (List Char)} (hk : k ≠ k') :
      lastValue [(k,v),(k',v')] = lastValue [(k',v'),(k,v)] := by
    funext name
    by_cases h : k = name
    · subst h
      simp [lastValue,List.find?,hk.symm]
    · simp [lastValue,List.find?,h]
  simp only [orderedData,reorderedData,objectText,List.map_cons,List.map_nil,Text.denote,denoteMembers,
    unquote_quote]
  rw [hswap (by decide)]

theorem digest_canonical_layout :
    ∃ a b, decodeEvent sampleCodec (eventText utcTime (orderedData noSpaces) []) = some a ∧
      decodeEvent sampleCodec (eventText utcTime (orderedData lineBreak) []) = some b ∧
      a.event.data ≠ b.event.data ∧
      (cloudEventDigest sampleCodec a id = cloudEventDigest sampleCodec b id ↔
        denoted id (eventText utcTime (orderedData noSpaces) []) a =
          denoted id (eventText utcTime (orderedData lineBreak) []) b) := by
  obtain ⟨hordered,hbroken,-⟩ := decode_samples
  refine ⟨_,_,hordered,hbroken,by decide +kernel,?_⟩
  refine (digest_canonical_iff id Function.injective_id hordered hbroken).mpr fun _ => ?_
  rw [dataText_event,dataText_event,otherAttributes_event,otherAttributes_event]
  exact iff_of_true ⟨rfl,rfl⟩ rfl

/-- The same event with its data in another order, and with its time in another zone, is told apart;
two events with different comments are not. -/
theorem digest_not_canonical :
    (∃ a b, decodeEvent sampleCodec (eventText utcTime (orderedData noSpaces) []) = some a ∧
      decodeEvent sampleCodec (eventText utcTime reorderedData []) = some b ∧
      cloudEventDigest sampleCodec a id ≠ cloudEventDigest sampleCodec b id ∧
      denoted id (eventText utcTime (orderedData noSpaces) []) a =
        denoted id (eventText utcTime reorderedData []) b) ∧
    (∃ a b, decodeEvent sampleCodec (eventText utcTime (orderedData noSpaces) []) = some a ∧
      decodeEvent sampleCodec (eventText zonedTime (orderedData noSpaces) []) = some b ∧
      cloudEventDigest sampleCodec a id ≠ cloudEventDigest sampleCodec b id ∧
      denoted id (eventText utcTime (orderedData noSpaces) []) a =
        denoted id (eventText zonedTime (orderedData noSpaces) []) b) ∧
    ∃ a b, decodeEvent sampleCodec (commentText "x") = some a ∧
      decodeEvent sampleCodec (commentText "y") = some b ∧
      cloudEventDigest sampleCodec a id = cloudEventDigest sampleCodec b id ∧
      denoted id (commentText "x") a ≠ denoted id (commentText "y") b := by
  obtain ⟨hordered,-,hreordered,hzoned,hx,hy⟩ := decode_samples
  refine ⟨⟨_,_,hordered,hreordered,by decide +kernel,?_⟩,
    ⟨_,_,hordered,hzoned,by decide +kernel,?_⟩,⟨_,_,hx,hy,rfl,fun h => ?_⟩⟩
  · rw [denoted,denoted,dataText_event,dataText_event,otherAttributes_event,otherAttributes_event,
      denote_reordered]
    rfl
  · rw [denoted,denoted,dataText_event,dataText_event,otherAttributes_event,otherAttributes_event]
    rfl
  · have hothers := congrFun (congrArg Denoted.others h) "comment"
    simp [denoted,otherAttributes_comment] at hothers

end Samples

end CostConsumer.Ingest
