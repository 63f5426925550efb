import Sluicio.Ingest.AnyValue
import Sluicio.Ingest.Metrics

/-!
# Spans on their way into the database

`ConvertRequest` makes one row of every span of a request.  Links and events are capped, with
their number kept beside them, and the values of an event's attributes are cut at a number of
bytes.

Texts are cut as bytes.  A time is a number of nanoseconds of 64 bits without a sign, which the
conversion reads as one with a sign.
-/

namespace Sluicio.Ingest

open Lib
open Store (AttrMap)

/-- A `KeyValue`; a nil one in a list is `none` there. -/
structure Attribute (F : Type) where
  key : String
  value : AnyValue F

structure SpanEvent (F : Type) where
  timeUnixNano : UInt64 := 0
  name : String := ""
  attributes : List (Option (Attribute F)) := []

structure SpanLink where
  traceID : List UInt8 := []
  spanID : List UInt8 := []

/-- A `Span`; a nil one is the empty one, which its getters read.  The kind and the code of the
status are numbers of open enumerations. -/
structure Span (F : Type) where
  traceID : List UInt8 := []
  spanID : List UInt8 := []
  parentSpanID : List UInt8 := []
  name : String := ""
  kind : Int := 0
  startTimeUnixNano : UInt64 := 0
  endTimeUnixNano : UInt64 := 0
  attributes : List (Option (Attribute F)) := []
  links : List (Option SpanLink) := []
  events : List (Option (SpanEvent F)) := []
  statusCode : Int := 0
  statusMessage : String := ""

/-- A `ResourceSpans`: the resource's attributes and the spans of its scopes. -/
structure ResourceSpans (F : Type) where
  attributes : List (Option (Attribute F)) := []
  scopeSpans : List (List (Span F)) := []

/-- A `SpanRow`, without the organisation of the request's key. -/
structure SpanRow where
  timestamp : Int
  traceID : String
  spanID : String
  parentSpanID : String
  spanName : String
  spanKind : String
  serviceName : String
  serviceNamespace : String
  resourceAttributes : AttrMap
  spanAttributes : AttrMap
  durationNs : Nat
  statusCode : String
  statusMessage : String
  linkTraceIDs : List String
  linkSpanIDs : List String
  linksTotal : Nat
  eventsTimestamp : List Int
  eventsName : List String
  eventsAttributes : List (List (String × List UInt8))
  eventsTotal : Nat

def maxSpanEvents : Nat := 32

def maxSpanLinks : Nat := 32

def maxEventValueBytes : Nat := 16 * 2 ^ 10

/-- The bytes of a text. -/
def utf8 (s : String) : List UInt8 :=
  s.toList.flatMap String.utf8EncodeChar

def truncatedMarker : List UInt8 := utf8 "\n… [truncated]"

/-- `int64(x)` -/
def int64 (x : UInt64) : Int :=
  if x.toNat < 2 ^ 63 then x.toNat else (x.toNat : Int) - 2 ^ 64

/-- `uint32(n)` of a length. -/
def uint32 (n : Nat) : Nat := n % 2 ^ 32

/-- `t.Sub(u)`, which stays within the range of a duration. -/
def timeSub (t u : Int) : Int := max (-2 ^ 63) (min (2 ^ 63 - 1) (t - u))

/-! ## The conversion -/

/-- `hex.EncodeToString` -/
def hexText (bs : List UInt8) : String := String.ofList (hexBytes bs)

def runeStart (b : UInt8) : Bool := b &&& 0xC0 != 0x80

/-- The loop of `truncateUTF8`: back to the start of a character. -/
def cutPoint (s : List UInt8) : Nat → Nat
  | 0 => 0
  | n + 1 => if !(runeStart (s.getD (n + 1) 0)) then cutPoint s n else n + 1

def truncateUTF8 (s : List UInt8) (n : Nat) : List UInt8 :=
  if s.length ≤ n then s else s.take (cutPoint s n)

def spanKindString : Int → String
  | 1 => "Internal"
  | 2 => "Server"
  | 3 => "Client"
  | 4 => "Producer"
  | 5 => "Consumer"
  | _ => "Unspecified"

def statusCodeString : Int → String
  | 1 => "Ok"
  | 2 => "Error"
  | _ => "Unset"

variable {F : Type}

section

variable (g : Floats F)

/-- `attributesToMap` of the attributes that are not nil. -/
def spanAttributesToMap (attrs : List (Option (Attribute F))) : AttrMap :=
  attributesToMap ((attrs.filterMap id).map fun kv => ⟨kv.key, anyValueToString g kv.value⟩)

/-- A value of an event's attribute, cut when it is too long. -/
def eventValue (v : String) : List UInt8 :=
  if maxEventValueBytes < (utf8 v).length then
    truncateUTF8 (utf8 v) maxEventValueBytes ++ truncatedMarker
  else utf8 v

def eventAttributes (e : SpanEvent F) : List (String × List UInt8) :=
  (spanAttributesToMap g e.attributes).map fun kv => (kv.1, eventValue kv.2)

def convertEvents (events : List (Option (SpanEvent F))) :
    List Int × List String × List (List (String × List UInt8)) × Nat :=
  let total := uint32 events.length
  if total = 0 then ([], [], [], 0)
  else
    let kept := (events.take (min events.length maxSpanEvents)).filterMap id
    (kept.map fun e => int64 e.timeUnixNano, kept.map fun e => e.name,
      kept.map (eventAttributes g), total)

def convertLinks (links : List (Option SpanLink)) : List String × List String × Nat :=
  let total := uint32 links.length
  if total = 0 then ([], [], 0)
  else
    let n := if maxSpanLinks < links.length then maxSpanLinks else links.length
    let kept := (links.take n).filterMap id
    (kept.map fun l => hexText l.traceID, kept.map fun l => hexText l.spanID, total)

def convertSpan (span : Span F) (resourceAttrs : AttrMap) (serviceName serviceNamespace : String) :
    SpanRow :=
  let start := int64 span.startTimeUnixNano
  let finish := int64 span.endTimeUnixNano
  let links := convertLinks span.links
  let events := convertEvents g span.events
  { timestamp := start
    traceID := hexText span.traceID
    spanID := hexText span.spanID
    parentSpanID := hexText span.parentSpanID
    spanName := span.name
    spanKind := spanKindString span.kind
    serviceName := serviceName
    serviceNamespace := serviceNamespace
    resourceAttributes := resourceAttrs
    spanAttributes := spanAttributesToMap g span.attributes
    durationNs := if start < finish then (timeSub finish start).toNat else 0
    statusCode := statusCodeString span.statusCode
    statusMessage := span.statusMessage
    linkTraceIDs := links.1
    linkSpanIDs := links.2.1
    linksTotal := links.2.2
    eventsTimestamp := events.1
    eventsName := events.2.1
    eventsAttributes := events.2.2.1
    eventsTotal := events.2.2.2 }

def resourceSpanRows (rs : ResourceSpans F) : List SpanRow :=
  let resourceAttrs := spanAttributesToMap g rs.attributes
  rs.scopeSpans.flatMap fun spans => spans.map fun span =>
    convertSpan g span resourceAttrs (resolveServiceName resourceAttrs)
      (resourceAttrs.value "service.namespace")

def convertRequest (resourceSpans : List (ResourceSpans F)) : List SpanRow :=
  resourceSpans.flatMap (resourceSpanRows g)

end

/-! ## Cutting between characters -/

theorem runeStart_eq (b : UInt8) : runeStart b = !(128 ≤ b.toNat && b.toNat < 192) := by
  have hall : ∀ n < 256, runeStart (UInt8.ofNat n) = !(128 ≤ n && n < 192) := by
    decide +kernel
  have hb := hall b.toNat b.toNat_lt
  rw [UInt8.ofNat_toNat] at hb
  exact hb

theorem runeStart_utf8EncodeChar (c : Char) :
    ∃ b bs, String.utf8EncodeChar c = b :: bs ∧ ∀ x ∈ bs, runeStart x = false := by
  have htail : ∀ n, runeStart (UInt8.ofNat (n % 64 + 128)) = false := by
    intro n
    have hn : (UInt8.ofNat (n % 64 + 128)).toNat = n % 64 + 128 :=
      UInt8.toNat_ofNat_of_lt' (by show _ < 256; omega)
    rw [runeStart_eq, hn]
    simp
    omega
  unfold String.utf8EncodeChar
  dsimp only
  split
  · exact ⟨_, [], rfl, by simp⟩
  split
  · refine ⟨_, _, rfl, ?_⟩
    intro x hx
    rw [List.mem_singleton.mp hx]
    exact htail _
  split
  · refine ⟨_, _, rfl, ?_⟩
    intro x hx
    simp only [List.mem_cons, List.not_mem_nil, or_false] at hx
    rcases hx with rfl | rfl
    · exact htail _
    · exact htail _
  refine ⟨_, _, rfl, ?_⟩
  intro x hx
  simp only [List.mem_cons, List.not_mem_nil, or_false] at hx
  rcases hx with rfl | rfl | rfl
  · exact htail _
  · exact htail _
  · exact htail _

theorem cutPoint_spec (s : List UInt8) (n : Nat) :
    cutPoint s n ≤ n ∧ (cutPoint s n = 0 ∨ runeStart (s.getD (cutPoint s n) 0)) := by
  induction n with
  | zero => exact ⟨le_rfl, .inl rfl⟩
  | succ n ih =>
    rw [cutPoint]
    by_cases hstart : runeStart (s.getD (n + 1) 0) = true
    · rw [if_neg (by rw [hstart]; decide)]
      exact ⟨le_rfl, .inr hstart⟩
    · rw [if_pos (by simpa using hstart)]
      exact ⟨by omega, ih.2⟩

theorem truncateUTF8_spec (v : String) {n : Nat} (hlong : n < (utf8 v).length) :
    ∃ t : String, t.toList <+: v.toList ∧ (utf8 t).length ≤ n ∧
      truncateUTF8 (utf8 v) n = utf8 t := by
  obtain ⟨hle, hcut⟩ := cutPoint_spec (utf8 v) n
  have hstart : cutPoint (utf8 v) n = 0 ∨
      ∃ b, (v.toList.flatMap String.utf8EncodeChar)[cutPoint (utf8 v) n]? = some b ∧
        runeStart b := by
    apply hcut.imp id
    intro hrune
    have hin : cutPoint (utf8 v) n < (utf8 v).length := by omega
    refine ⟨(utf8 v)[cutPoint (utf8 v) n], List.getElem?_eq_getElem hin, ?_⟩
    rwa [List.getD_eq_getElem?_getD, List.getElem?_eq_getElem hin, Option.getD_some] at hrune
  obtain ⟨m, hm⟩ := take_flatMap_of_start runeStart_utf8EncodeChar v.toList hstart
  have htext : truncateUTF8 (utf8 v) n = utf8 (String.ofList (v.toList.take m)) := by
    rw [truncateUTF8, if_neg (by omega)]
    show (v.toList.flatMap String.utf8EncodeChar).take (cutPoint (utf8 v) n) = _
    rw [hm, utf8, String.toList_ofList]
  refine ⟨String.ofList (v.toList.take m), ?_, ?_, htext⟩
  · rw [String.toList_ofList]
    exact List.take_prefix m v.toList
  · rw [← htext, truncateUTF8, if_neg (by omega), List.length_take]
    omega

/-! ## What a row keeps -/

/-- A value as it was, or the characters it begins with and the marker. -/
def ValueKept (v : String) (stored : List UInt8) : Prop :=
  if (utf8 v).length ≤ maxEventValueBytes then stored = utf8 v
  else ∃ t : String, t.toList <+: v.toList ∧ (utf8 t).length ≤ maxEventValueBytes ∧
    stored = utf8 t ++ truncatedMarker

theorem valueKept_eventValue (v : String) : ValueKept v (eventValue v) := by
  unfold ValueKept eventValue
  by_cases hshort : (utf8 v).length ≤ maxEventValueBytes
  · rw [if_pos hshort, if_neg (by omega)]
  · rw [if_neg hshort, if_pos (by omega)]
    obtain ⟨t, hinit, hlen, htext⟩ := truncateUTF8_spec v (not_le.mp hshort)
    exact ⟨t, hinit, hlen, by rw [htext]⟩

/-- The attributes of an event with their keys. -/
def EventKept (g : Floats F) (e : SpanEvent F) (stored : List (String × List UInt8)) : Prop :=
  List.Forall₂ (fun kv kv' => kv'.1 = kv.1 ∧ ValueKept kv.2 kv'.2)
    (spanAttributesToMap g e.attributes) stored

theorem eventKept_eventAttributes (g : Floats F) (e : SpanEvent F) :
    EventKept g e (eventAttributes g e) := by
  unfold EventKept eventAttributes
  rw [List.forall₂_map_right_iff, List.forall₂_same]
  intro kv _
  exact ⟨rfl, valueKept_eventValue kv.2⟩

structure SpanKept (g : Floats F) (span : Span F) (row : SpanRow) : Prop where
  ids : row.traceID = hexText span.traceID ∧ row.spanID = hexText span.spanID ∧
    row.parentSpanID = hexText span.parentSpanID
  linkLengths : row.linkTraceIDs.length = row.linkSpanIDs.length ∧
    row.linkTraceIDs.length ≤ maxSpanLinks
  links : row.linkTraceIDs <+: (span.links.filterMap id).map (fun l => hexText l.traceID) ∧
    row.linkSpanIDs <+: (span.links.filterMap id).map (fun l => hexText l.spanID)
  eventLengths : row.eventsTimestamp.length = row.eventsName.length ∧
    row.eventsName.length = row.eventsAttributes.length ∧
    row.eventsName.length ≤ maxSpanEvents
  events : row.eventsTimestamp <+: (span.events.filterMap id).map (fun e => int64 e.timeUnixNano) ∧
    row.eventsName <+: (span.events.filterMap id).map (fun e => e.name) ∧
    ∃ es, es <+: span.events.filterMap id ∧ List.Forall₂ (EventKept g) es row.eventsAttributes
  totals : row.linksTotal = span.links.length ∧ row.eventsTotal = span.events.length
  duration : row.durationNs = span.endTimeUnixNano.toNat - span.startTimeUnixNano.toNat

/-- Both times on one side of the largest number with a sign, and lists that can be counted. -/
structure Span.InRange (span : Span F) : Prop where
  times : span.startTimeUnixNano.toNat < 2 ^ 63 ↔ span.endTimeUnixNano.toNat < 2 ^ 63
  links : span.links.length < 2 ^ 32
  events : span.events.length < 2 ^ 32

theorem take_filterMap_prefix {α : Type} (l : List (Option α)) (n : Nat) :
    (l.take n).filterMap id <+: l.filterMap id ∧ ((l.take n).filterMap id).length ≤ n :=
  ⟨(List.take_prefix n l).filterMap id,
    (List.length_filterMap_le id _).trans (List.length_take_le n l)⟩

theorem convertLinks_spec (links : List (Option SpanLink)) :
    ∃ kept, kept <+: links.filterMap id ∧ kept.length ≤ maxSpanLinks ∧
      convertLinks links = (kept.map fun l => hexText l.traceID,
        kept.map fun l => hexText l.spanID, uint32 links.length) := by
  unfold convertLinks
  dsimp only
  by_cases hzero : uint32 links.length = 0
  · rw [if_pos hzero, hzero]
    exact ⟨[], List.nil_prefix, Nat.zero_le _, rfl⟩
  rw [if_neg hzero]
  obtain ⟨hinit, hlen⟩ := take_filterMap_prefix links
    (if maxSpanLinks < links.length then maxSpanLinks else links.length)
  refine ⟨_, hinit, hlen.trans ?_, rfl⟩
  split <;> omega

theorem convertEvents_spec (g : Floats F) (events : List (Option (SpanEvent F))) :
    ∃ kept, kept <+: events.filterMap id ∧ kept.length ≤ maxSpanEvents ∧
      convertEvents g events = (kept.map fun e => int64 e.timeUnixNano,
        kept.map fun e => e.name, kept.map (eventAttributes g), uint32 events.length) := by
  unfold convertEvents
  dsimp only
  by_cases hzero : uint32 events.length = 0
  · rw [if_pos hzero, hzero]
    exact ⟨[], List.nil_prefix, Nat.zero_le _, rfl⟩
  · rw [if_neg hzero]
    obtain ⟨hinit, hlen⟩ := take_filterMap_prefix events (min events.length maxSpanEvents)
    exact ⟨_, hinit, hlen.trans (min_le_right _ _), rfl⟩

theorem uint32_eq_iff (n : Nat) : uint32 n = n ↔ n < 2 ^ 32 := by
  unfold uint32
  omega

theorem duration_eq_iff (s e : UInt64) :
    (if int64 s < int64 e then (timeSub (int64 e) (int64 s)).toNat else 0) = e.toNat - s.toNat ↔
      (s.toNat < 2 ^ 63 ↔ e.toNat < 2 ^ 63) := by
  have hs := s.toNat_lt
  have he := e.toNat_lt
  unfold int64 timeSub
  split <;> split <;> split <;> omega

theorem spanKept_convertSpan (g : Floats F) (span : Span F) (attrs : AttrMap)
    (name namespaced : String) :
    SpanKept g span (convertSpan g span attrs name namespaced) ↔ span.InRange := by
  obtain ⟨links, hlinks, hlinkLen, hlinkRow⟩ := convertLinks_spec span.links
  obtain ⟨events, hevents, heventLen, heventRow⟩ := convertEvents_spec g span.events
  unfold convertSpan
  rw [hlinkRow, heventRow]
  dsimp only
  constructor
  · intro h
    exact ⟨(duration_eq_iff _ _).mp h.duration, (uint32_eq_iff _).mp h.totals.1,
      (uint32_eq_iff _).mp h.totals.2⟩
  · intro h
    constructor
    · exact ⟨rfl, rfl, rfl⟩
    · simpa using hlinkLen
    · exact ⟨hlinks.map _, hlinks.map _⟩
    · simpa using heventLen
    · refine ⟨hevents.map _, hevents.map _, events, hevents, ?_⟩
      rw [List.forall₂_map_right_iff, List.forall₂_same]
      intro e _
      exact eventKept_eventAttributes g e
    · exact ⟨(uint32_eq_iff _).mpr h.links, (uint32_eq_iff _).mpr h.events⟩
    · exact (duration_eq_iff _ _).mpr h.times

/-- The spans of a request in its order. -/
def spansOf (resourceSpans : List (ResourceSpans F)) : List (Span F) :=
  resourceSpans.flatMap fun rs => rs.scopeSpans.flatten

theorem forall₂_convertRequest (g : Floats F) (resourceSpans : List (ResourceSpans F)) :
    List.Forall₂ (fun span row => ∃ attrs name namespaced,
      row = convertSpan g span attrs name namespaced)
      (spansOf resourceSpans) (convertRequest g resourceSpans) := by
  have happend : ∀ {R : Span F → SpanRow → Prop} {a b : List (Span F)} {x y : List SpanRow},
      List.Forall₂ R a x → List.Forall₂ R b y → List.Forall₂ R (a ++ b) (x ++ y) :=
    fun ha hb => List.rel_append ha hb
  have hscopes : ∀ (scopes : List (List (Span F))) (attrs : AttrMap) (name namespaced : String),
      List.Forall₂ (fun span row => ∃ attrs name namespaced,
        row = convertSpan g span attrs name namespaced) scopes.flatten
        (scopes.flatMap fun spans => spans.map fun span =>
          convertSpan g span attrs name namespaced) := by
    intro scopes attrs name namespaced
    induction scopes with
    | nil => exact .nil
    | cons spans scopes ih =>
      apply happend _ ih
      rw [List.forall₂_map_right_iff, List.forall₂_same]
      intro span _
      exact ⟨attrs, name, namespaced, rfl⟩
  induction resourceSpans with
  | nil => exact .nil
  | cons rs rest ih => exact happend (hscopes rs.scopeSpans _ _ _) ih

/-- Every row is faithful to its span, one for each in the order of the request. -/
def Faithful (g : Floats F) (resourceSpans : List (ResourceSpans F)) : Prop :=
  List.Forall₂ (SpanKept g) (spansOf resourceSpans) (convertRequest g resourceSpans)

/-- **The conversion is faithful exactly when every span is in range.** -/
theorem faithful_iff (g : Floats F) (resourceSpans : List (ResourceSpans F)) :
    Faithful g resourceSpans ↔ ∀ span ∈ spansOf resourceSpans, span.InRange := by
  have hrows := forall₂_convertRequest g resourceSpans
  unfold Faithful
  generalize spansOf resourceSpans = spans at *
  generalize convertRequest g resourceSpans = rows at *
  induction hrows with
  | nil => simp
  | cons hrow _ ih =>
    obtain ⟨attrs, name, namespaced, rfl⟩ := hrow
    rw [List.forall₂_cons, List.forall_mem_cons, spanKept_convertSpan]
    exact and_congr_right fun _ => ih

private def noFloats : Floats Empty where
  finite x := x.elim
  formatFloat x := x.elim
  formatJSON x := x.elim
  parseFloat _ := none

/-- A span from the first nanosecond to the first one that has no number with a sign. -/
private def lateSpan : Span Empty where
  startTimeUnixNano := 1
  endTimeUnixNano := 9223372036854775808

/-- Its duration is stored as zero. -/
theorem late_end_unfaithful :
    (convertRequest noFloats [{ scopeSpans := [[lateSpan]] }]).map SpanRow.durationNs = [0] ∧
      ¬Faithful noFloats [{ scopeSpans := [[lateSpan]] }] := by
  constructor
  · decide +kernel
  · intro h
    have hrow := (List.forall₂_cons.mp h).1
    exact absurd hrow.duration (by decide +kernel)

end Sluicio.Ingest
