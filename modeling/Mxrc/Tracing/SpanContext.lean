import Mxrc.Lib.Maps
import Mxrc.Lib.Text

/-!
# Propagation of trace contexts

`injectTraceContext` writes a valid context into the headers and
`extractTraceContext` reads it back. The validator accepts capital digits and
only the flag of sampling, the parser only small letters and all flags; baggage
is written without quoting.
-/

namespace Mxrc.Tracing
open Mxrc.Lib List

abbrev Baggage := SortedMap (List Char) (List Char)

structure TraceContext where
  traceId : List Char
  spanId : List Char
  parentSpanId : List Char := []
  traceFlags : UInt8
  traceState : List Char := []
  baggage : Baggage := ⟨[], .nil⟩
  isRemote : Bool

def lowerDigits : List Char :=
  ['0', '1', '2', '3', '4', '5', '6', '7', '8', '9', 'a', 'b', 'c', 'd', 'e', 'f']

def isXDigit (c : Char) : Bool := c ∈ lowerDigits ∨ c ∈ ['A', 'B', 'C', 'D', 'E', 'F']

def isValidId (length : ℕ) (id : List Char) : Bool :=
  id.length = length && id.all isXDigit && !id.all (· = '0')

def isValidTraceFlags (flags : UInt8) : Bool := flags &&& ~~~1 = 0

def hexValue (s : List Char) : ℕ := s.foldl (fun n c => 16 * n + lowerDigits.idxOf c) 0

def hexText (flags : UInt8) : List Char :=
  [Nat.digitChar (flags.toNat / 16), Nat.digitChar (flags.toNat % 16)]

def traceparent (traceId spanId flags : List Char) : List Char :=
  '0' :: '0' :: '-' :: (traceId ++ '-' :: (spanId ++ '-' :: flags))

def parseTraceparent (s : List Char) : Option TraceContext :=
  let traceId := (s.drop 3).take 32
  let spanId := (s.drop 36).take 16
  let flags := s.drop 53
  if s = traceparent traceId spanId flags ∧ traceId.length = 32 ∧ spanId.length = 16 ∧
      flags.length = 2 ∧ (traceId ++ spanId ++ flags).all (· ∈ lowerDigits) then
    if isValidId 32 traceId && isValidId 16 spanId then
      some { traceId, spanId, traceFlags := .ofNat (hexValue flags), isRemote := true }
    else none
  else none

def formatTraceparent (context : TraceContext) : List Char :=
  traceparent context.traceId context.spanId (hexText context.traceFlags)

def isBlank (c : Char) : Bool := c = ' ' ∨ c = '\t'

def parseItem (item : List Char) : Option (List Char × List Char) :=
  match item.dropWhile (· ≠ '=') with
  | [] => none
  | _ :: value => some (item.takeWhile (· ≠ '='), value)

def parseBaggage (baggage : List Char) : Baggage :=
  if baggage = [] then ⟨[], .nil⟩
  else .ofEntries ((baggage.splitOn ',').filterMap fun item => parseItem (trim isBlank item))

def formatItem (entry : List Char × List Char) : List Char := entry.1 ++ '=' :: entry.2

def formatBaggage (baggage : Baggage) : List Char :=
  [','].intercalate (baggage.entries.map formatItem)

def isValidContext (context : TraceContext) : Bool :=
  isValidId 32 context.traceId && isValidId 16 context.spanId &&
    isValidTraceFlags context.traceFlags

def invalidContext : TraceContext where
  traceId := .replicate 32 '0'
  spanId := .replicate 16 '0'
  traceFlags := 0
  isRemote := false

abbrev Carrier := String → Option (List Char)

def extractTraceContext (carrier : Carrier) : TraceContext :=
  match (carrier "traceparent").bind parseTraceparent with
  | none => invalidContext
  | some context =>
    { context with
      traceState := (carrier "tracestate").getD context.traceState
      baggage := ((carrier "baggage").map parseBaggage).getD context.baggage }

def injectTraceContext (context : TraceContext) (carrier : Carrier) : Carrier :=
  if isValidContext context then
    let carrier := Function.update carrier "traceparent" (some (formatTraceparent context))
    let carrier := if context.traceState = [] then carrier
      else Function.update carrier "tracestate" (some context.traceState)
    if context.baggage.entries = [] then carrier
    else Function.update carrier "baggage" (some (formatBaggage context.baggage))
  else carrier

def emptyCarrier : Carrier := fun _ => none

structure SameContext (a b : TraceContext) : Prop where
  traceId : a.traceId = b.traceId
  spanId : a.spanId = b.spanId
  traceFlags : a.traceFlags = b.traceFlags
  traceState : a.traceState = b.traceState
  baggage : a.baggage = b.baggage

def ContextKept (context : TraceContext) : Prop :=
  isValidContext context →
    SameContext (extractTraceContext (injectTraceContext context emptyCarrier)) context

def HeaderKept (carrier : Carrier) : Prop :=
  let context := extractTraceContext carrier
  isValidId 32 context.traceId ∧ isValidId 16 context.spanId →
    injectTraceContext context emptyCarrier "traceparent" = carrier "traceparent"

structure Portable (entry : List Char × List Char) : Prop where
  key_comma : ',' ∉ entry.1
  key_equal : '=' ∉ entry.1
  value_comma : ',' ∉ entry.2
  key_blank : entry.1.dropWhile isBlank = entry.1
  value_blank : entry.2.rdropWhile isBlank = entry.2

section
variable {traceId spanId flags s : List Char} {context : TraceContext}

lemma hexText_hexValue {a b : Char} (ha : a ∈ lowerDigits) (hb : b ∈ lowerDigits) :
    hexText (.ofNat (hexValue [a, b])) = [a, b] := by
  have hall : lowerDigits.all fun a => lowerDigits.all fun b =>
      hexText (.ofNat (hexValue [a, b])) = [a, b] := by decide +kernel
  simp only [all_eq_true, decide_eq_true_eq] at hall
  exact hall a ha b hb

lemma hexValue_hexText (f : UInt8) :
    .ofNat (hexValue (hexText f)) = f ∧ (hexText f).all (· ∈ lowerDigits) := by
  have hall : ∀ n < 256, UInt8.ofNat (hexValue (hexText (.ofNat n))) = .ofNat n ∧
      (hexText (.ofNat n)).all (· ∈ lowerDigits) := by decide +kernel
  simpa using hall f.toNat f.toNat_lt

lemma parseTraceparent_traceparent (htrc : traceId.length = 32) (hspan : spanId.length = 16)
    (hflg : flags.length = 2) :
    parseTraceparent (traceparent traceId spanId flags) =
      if (traceId ++ spanId ++ flags).all (· ∈ lowerDigits) then
        if isValidId 32 traceId && isValidId 16 spanId then
          some { traceId, spanId, traceFlags := .ofNat (hexValue flags), isRemote := true }
        else none
      else none := by
  have h1 : ((traceparent traceId spanId flags).drop 3).take 32 = traceId := take_left' htrc
  have h2 : (traceparent traceId spanId flags).drop 36 = spanId ++ '-' :: flags := by
    have happ : traceparent traceId spanId flags =
        ('0' :: '0' :: '-' :: (traceId ++ ['-'])) ++ (spanId ++ '-' :: flags) := by
      simp [traceparent]
    rw [happ]
    exact drop_left' (by simp [htrc])
  have h3 : (traceparent traceId spanId flags).drop 53 = flags := by
    rw [show 53 = 36 + 17 from rfl, ← drop_drop, h2, append_cons]
    exact drop_left' (by simp [hspan])
  simp only [parseTraceparent, h1, h2, h3, take_left' hspan, htrc, hspan, hflg, true_and]

lemma exists_of_parseTraceparent (h : parseTraceparent s = some context) :
    ∃ flags, s = traceparent context.traceId context.spanId flags ∧ flags.length = 2 ∧
      flags.all (· ∈ lowerDigits) ∧ context.traceFlags = .ofNat (hexValue flags) := by
  simp only [parseTraceparent] at h
  split_ifs at h with hform hval
  cases h
  obtain ⟨hs, -, -, hlen, hlow⟩ := hform
  rw [all_append, Bool.and_eq_true] at hlow
  exact ⟨s.drop 53, hs, hlen, hlow.2, rfl⟩

end

section
variable {entry : List Char × List Char} {item : List Char}

lemma parseItem_formatItem (h : '=' ∉ entry.1) : parseItem (formatItem entry) = some entry := by
  have hkey : ∀ c ∈ entry.1, c ≠ '=' := fun c hc heq => h (heq ▸ hc)
  have hdrop : (formatItem entry).dropWhile (· ≠ '=') = '=' :: entry.2 := by
    rw [formatItem, dropWhile_append_of_pos (by simpa using hkey)]
    rfl
  have htake : (formatItem entry).takeWhile (· ≠ '=') = entry.1 := by
    rw [formatItem, takeWhile_append_of_pos (by simpa using hkey)]
    simp
  rw [parseItem, hdrop, htake]

lemma eq_formatItem_of_parseItem (h : parseItem item = some entry) :
    item = formatItem entry ∧ '=' ∉ entry.1 := by
  rw [parseItem] at h
  split at h
  · cases h
  · rename_i c value hdrop
    cases h
    have hc : c = '=' := by
      have hne : item.dropWhile (· ≠ '=') ≠ [] := by
        rw [hdrop]
        exact cons_ne_nil c value
      have hhead := head_dropWhile_not (· ≠ '=') hne
      simp only [hdrop, head_cons] at hhead
      simpa using hhead
    refine ⟨?_, fun hmem => ?_⟩
    · conv_lhs => rw [← takeWhile_append_dropWhile (p := (· ≠ '=')) (l := item), hdrop, hc]
      rfl
    · simpa using mem_takeWhile_imp hmem

lemma trim_formatItem : trim isBlank (formatItem entry) =
    entry.1.dropWhile isBlank ++ '=' :: entry.2.rdropWhile isBlank := by
  have happ : formatItem entry = entry.1 ++ ['='] ++ entry.2 := by simp [formatItem]
  rw [happ, trim_append_append (by simp) (by simp [isBlank])]
  simp

lemma Portable.parse (h : Portable entry) :
    parseItem (trim isBlank (formatItem entry)) = some entry := by
  rw [trim_formatItem, h.key_blank, h.value_blank]
  exact parseItem_formatItem h.key_equal

lemma portable_of_parse (hcom : ',' ∉ item)
    (h : parseItem (trim isBlank item) = some entry) : Portable entry := by
  obtain ⟨hitem, hkey⟩ := eq_formatItem_of_parseItem h
  have hsub : ∀ c ∈ formatItem entry, c ∈ item := fun c hc => by
    rw [← hitem, trim] at hc
    exact (dropWhile_suffix _).subset ((List.rdropWhile_prefix _ _).subset hc)
  have hagain : entry.1.dropWhile isBlank ++ '=' :: entry.2.rdropWhile isBlank =
      entry.1 ++ '=' :: entry.2 := by
    rw [← trim_formatItem, ← hitem, trim_trim, hitem, formatItem]
  have hkey' : '=' ∉ entry.1.dropWhile isBlank := fun hc =>
    hkey ((dropWhile_suffix _).subset hc)
  obtain ⟨hfrn, hback⟩ := append_cons_inj hkey' hkey hagain
  exact ⟨fun hc => hcom (hsub _ (by simp [formatItem, hc])), hkey,
    fun hc => hcom (hsub _ (by simp [formatItem, hc])), hfrn, hback⟩

lemma parseBaggage_formatBaggage_iff (baggage : Baggage) :
    parseBaggage (formatBaggage baggage) = baggage ↔ ∀ e ∈ baggage.entries, Portable e := by
  constructor
  · intro h e he
    rw [← h, parseBaggage] at he
    split_ifs at he
    · simp at he
    · obtain ⟨item, hitem, hprs⟩ := mem_filterMap.mp (SortedMap.mem_ofEntries he)
      exact portable_of_parse (notMem_of_mem_splitOn hitem) hprs
  · intro h
    by_cases hemp : baggage.entries = []
    · rw [formatBaggage, hemp]
      exact SortedMap.ext hemp.symm
    · have htms : (formatBaggage baggage).splitOn ',' = baggage.entries.map formatItem := by
        refine splitOn_intercalate ',' ?_ (by simpa using hemp)
        intro item hitem
        obtain ⟨e, he, rfl⟩ := mem_map.mp hitem
        simp [formatItem, (h e he).key_comma, (h e he).value_comma]
      have hprs : (baggage.entries.map formatItem).filterMap
          (fun item => parseItem (trim isBlank item)) = baggage.entries := by
        rw [filterMap_map]
        exact (filterMap_congr fun e he => (h e he).parse).trans filterMap_some
      have hne : formatBaggage baggage ≠ [] := fun hnil => by
        obtain ⟨e, es, hes⟩ := exists_cons_of_ne_nil hemp
        rw [hnil, hes] at htms
        simp [formatItem] at htms
      rw [parseBaggage, if_neg hne, htms, hprs, SortedMap.ofEntries_entries]

end

section
variable {context : TraceContext} {carrier : Carrier}

lemma injectTraceContext_traceparent (h : isValidContext context) :
    injectTraceContext context emptyCarrier "traceparent" = some (formatTraceparent context) := by
  rw [injectTraceContext, if_pos h]
  split_ifs <;> simp

lemma getD_tracestate (h : isValidContext context) :
    (injectTraceContext context emptyCarrier "tracestate").getD [] = context.traceState := by
  rw [injectTraceContext, if_pos h]
  split_ifs <;> simp_all [emptyCarrier]

lemma getD_baggage (h : isValidContext context) :
    ((injectTraceContext context emptyCarrier "baggage").map parseBaggage).getD ⟨[], .nil⟩ =
      parseBaggage (formatBaggage context.baggage) := by
  by_cases hemp : context.baggage.entries = []
  · have hnone : injectTraceContext context emptyCarrier "baggage" = none := by
      rw [injectTraceContext, if_pos h]
      split_ifs <;> simp [emptyCarrier]
    rw [hnone, formatBaggage, hemp]
    rfl
  · have hsome : injectTraceContext context emptyCarrier "baggage" =
        some (formatBaggage context.baggage) := by
      rw [injectTraceContext, if_pos h]
      simp [hemp]
    rw [hsome]
    rfl

lemma not_isValidId_replicate (n : ℕ) : ¬isValidId n (.replicate n '0') := by
  simp [isValidId]

lemma length_of_isValidId {n : ℕ} {id : List Char} (h : isValidId n id) : id.length = n := by
  simp only [isValidId, Bool.and_eq_true, decide_eq_true_eq] at h
  exact h.1.1

lemma contextKept_iff (context : TraceContext) : ContextKept context ↔
    (isValidContext context → (context.traceId ++ context.spanId).all (· ∈ lowerDigits) ∧
      ∀ e ∈ context.baggage.entries, Portable e) := by
  refine forall_congr' fun hval => ?_
  obtain ⟨⟨htrc, hspan⟩, -⟩ : (isValidId 32 context.traceId ∧ isValidId 16 context.spanId) ∧
    isValidTraceFlags context.traceFlags := by simpa [isValidContext] using hval
  obtain ⟨hflg, hdig⟩ := hexValue_hexText context.traceFlags
  have hprs : (injectTraceContext context emptyCarrier "traceparent").bind parseTraceparent =
      if (context.traceId ++ context.spanId).all (· ∈ lowerDigits) then
        some { traceId := context.traceId, spanId := context.spanId,
               traceFlags := context.traceFlags, isRemote := true }
      else none := by
    rw [injectTraceContext_traceparent hval, Option.bind_some, formatTraceparent,
      parseTraceparent_traceparent (length_of_isValidId htrc) (length_of_isValidId hspan) rfl,
      all_append, hdig, Bool.and_true, hflg, htrc, hspan]
    rfl
  by_cases hlow : (context.traceId ++ context.spanId).all (· ∈ lowerDigits)
  · rw [if_pos hlow] at hprs
    simp only [extractTraceContext, hprs, getD_tracestate hval, getD_baggage hval]
    rw [and_iff_right hlow, ← parseBaggage_formatBaggage_iff]
    exact ⟨fun h => h.baggage, fun h => ⟨rfl, rfl, rfl, rfl, h⟩⟩
  · rw [if_neg hlow] at hprs
    simp only [extractTraceContext, hprs]
    refine iff_of_false (fun hsame => ?_) fun h => hlow h.1
    rw [← hsame.traceId] at htrc
    exact not_isValidId_replicate 32 htrc

lemma headerKept_iff (carrier : Carrier) : HeaderKept carrier ↔
    (isValidId 32 (extractTraceContext carrier).traceId ∧
        isValidId 16 (extractTraceContext carrier).spanId →
      isValidTraceFlags (extractTraceContext carrier).traceFlags) := by
  refine forall_congr' fun hids => ?_
  cases hprs : (carrier "traceparent").bind parseTraceparent with
  | none =>
    simp only [extractTraceContext, hprs] at hids
    exact absurd hids.1 (not_isValidId_replicate 32)
  | some context =>
    obtain ⟨header, hhdr, hctx⟩ := Option.bind_eq_some_iff.mp hprs
    obtain ⟨flags, rfl, hlen, hlow, hflg⟩ := exists_of_parseTraceparent hctx
    obtain ⟨a, b, rfl⟩ := length_eq_two.mp hlen
    have htext : hexText context.traceFlags = [a, b] := by
      rw [hflg]
      simp only [all_cons, all_nil, Bool.and_true, Bool.and_eq_true, decide_eq_true_eq] at hlow
      exact hexText_hexValue hlow.1 hlow.2
    simp only [extractTraceContext, hprs] at hids ⊢
    rw [hhdr, ← htext]
    by_cases hval : isValidTraceFlags context.traceFlags
    · refine iff_of_true (injectTraceContext_traceparent ?_) hval
      simp [isValidContext, hids, hval]
    · refine iff_of_false (fun h => ?_) hval
      rw [injectTraceContext, if_neg (by simp [isValidContext, hval])] at h
      cases h

theorem propagation_lossless_iff (context : TraceContext) (carrier : Carrier) :
    (ContextKept context ↔ (isValidContext context →
      (context.traceId ++ context.spanId).all (· ∈ lowerDigits) ∧
        ∀ e ∈ context.baggage.entries, Portable e)) ∧
    (HeaderKept carrier ↔ (isValidId 32 (extractTraceContext carrier).traceId ∧
        isValidId 16 (extractTraceContext carrier).spanId →
      isValidTraceFlags (extractTraceContext carrier).traceFlags)) :=
  ⟨contextKept_iff context, headerKept_iff carrier⟩

def capitalContext : TraceContext where
  traceId := .replicate 32 'A'
  spanId := .replicate 16 '1'
  traceFlags := 1
  isRemote := false

theorem not_propagation_lossless :
    ¬ ∀ context carrier, ContextKept context ∧ HeaderKept carrier := by
  intro h
  have hkept := (contextKept_iff _).mp (h capitalContext emptyCarrier).1 (by decide +kernel)
  exact absurd hkept.1 (by decide +kernel)

end
end Mxrc.Tracing
