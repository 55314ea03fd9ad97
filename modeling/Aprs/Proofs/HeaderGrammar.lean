import Aprs.Proofs.Line

/-!
The grammar of headers. What decoding accepts is what the grammar writes, and of the faults that a
header has, the first one in a fixed order is the error. Sources, checked destinations and the
elements of the path have no character that divides a line, so such a header ends at the first colon
of its line.
-/

namespace Aprs

namespace Text

def IsRun (holds : Char → Bool) (least most : Nat) (t : Text) : Prop :=
  least ≤ t.length ∧ t.length ≤ most ∧ ∀ c ∈ t, holds c = true

theorem not_mem_of_all {holds : Char → Bool} {t : Text} {c : Char}
    (h : ∀ d ∈ t, holds d = true) (hc : holds c = false) : c ∉ t := by
  intro hmem
  have hholds := h c hmem
  rw [hc] at hholds
  cases hholds

theorem not_mem_of_isRun {holds : Char → Bool} {least most : Nat} {t : Text} {c : Char}
    (h : IsRun holds least most t) (hc : holds c = false) : c ∉ t := not_mem_of_all h.2.2 hc

theorem utf8Size_eq_one {c : Char} (h : c.toNat < 128) : c.utf8Size = 1 := by
  rw [Char.utf8Size_eq_one_iff, UInt32.le_iff_toNat_le]
  exact Nat.le_of_lt_succ h

theorem byteLength_eq_length {t : Text} (h : ∀ c ∈ t, c.toNat < 128) : t.byteLength = t.length := by
  induction t with
  | nil => rfl
  | cons c t ih =>
    rw [List.forall_mem_cons] at h
    rw [byteLength_cons, utf8Size_eq_one h.1, ih h.2, List.length_cons, Nat.add_comm]

theorem splitFirst?_eq_none_iff {mark : Char} {t : Text} :
    splitFirst? mark t = none ↔ mark ∉ t := by
  constructor
  · rintro h hmem
    obtain ⟨before, after, rfl, hbefore⟩ := List.eq_append_cons_of_mem hmem
    rw [splitFirst?_eq_some_iff.mpr ⟨rfl, hbefore⟩] at h
    cases h
  · intro h
    by_contra hsome
    obtain ⟨⟨before, after⟩, hcut⟩ := Option.ne_none_iff_exists'.mp hsome
    rw [(splitFirst?_eq_some_iff.mp hcut).1] at h
    exact h (List.mem_append_right _ List.mem_cons_self)

/-- Texts, each behind a mark. -/
def marked (mark : Char) (parts : List Text) : Text := parts.flatMap (mark :: ·)

theorem not_mem_marked {mark c : Char} {parts : List Text} (hc : c ≠ mark)
    (h : ∀ t ∈ parts, c ∉ t) : c ∉ marked mark parts := by
  rw [marked, List.mem_flatMap]
  rintro ⟨t, ht, hmem⟩
  rcases List.mem_cons.mp hmem with hmark | hmem
  · exact hc hmark
  · exact h t ht hmem

theorem splitOn_append_marked {mark : Char} {t : Text} {parts : List Text} (ht : mark ∉ t)
    (hparts : ∀ u ∈ parts, mark ∉ u) : (t ++ marked mark parts).splitOn mark = t :: parts := by
  induction parts generalizing t with
  | nil =>
    rw [marked, List.flatMap_nil, List.append_nil]
    exact List.splitOn_eq_singleton ht
  | cons u parts ih =>
    rw [List.forall_mem_cons] at hparts
    rw [marked, List.flatMap_cons, List.cons_append,
      List.splitOn_append_cons_self_of_not_mem ht]
    exact congrArg (t :: ·) (ih hparts.1 hparts.2)

theorem exists_append_marked (mark : Char) (t : Text) :
    ∃ u parts, t = u ++ marked mark parts ∧ mark ∉ u ∧ ∀ v ∈ parts, mark ∉ v := by
  induction t with
  | nil => exact ⟨[], [], rfl, List.not_mem_nil, List.forall_mem_nil _⟩
  | cons c t ih =>
    obtain ⟨u, parts, rfl, hu, hparts⟩ := ih
    by_cases hc : c = mark
    · subst hc
      exact ⟨[], u :: parts, rfl, List.not_mem_nil, List.forall_mem_cons.mpr ⟨hu, hparts⟩⟩
    · exact ⟨c :: u, parts, rfl, List.not_mem_cons_of_ne_of_not_mem (Ne.symm hc) hu, hparts⟩

end Text

namespace Callsign

open Text

/-- A base, and perhaps an identifier behind a hyphen. -/
def IsJoined (base ssid : Text → Prop) (callsign : Text) : Prop :=
  ∃ t, base t ∧ (callsign = t ∨ ∃ u, callsign = t ++ '-' :: u ∧ ssid u)

def Source (callsign : Text) : Prop :=
  callsign.length ≤ 9 ∧
    IsJoined (fun base => base ≠ [] ∧ ∀ c ∈ base, c.isAlphanum = true)
      (IsRun Char.isAlphanum 1 8) callsign

def Station (callsign : Text) : Prop :=
  IsJoined (IsRun Char.isAlphanum 1 6) (IsRun Char.isDigit 1 2) callsign

def PathElement (element : Text) : Prop :=
  ∃ call, IsRun (fun c => c.isAlphanum || c == '-') 1 9 call ∧
    (element = call ∨ element = call ++ ['*'])

variable {callsign element : Text} {c : Char}

theorem not_mem_of_isJoined {base ssid : Text → Prop} (hbase : ∀ t, base t → c ∉ t)
    (hssid : ∀ t, ssid t → c ∉ t) (hc : c ≠ '-') (h : IsJoined base ssid callsign) :
    c ∉ callsign := by
  obtain ⟨t, ht, rfl | ⟨u, rfl, hu⟩⟩ := h
  · exact hbase callsign ht
  · rw [List.mem_append, List.mem_cons, not_or, not_or]
    exact ⟨hbase t ht, hc, hssid u hu⟩

/-- Callsigns are made of letters, digits and hyphens. -/
theorem not_mem_of_source (h : Source callsign) (halphanum : c.isAlphanum = false) (hc : c ≠ '-') :
    c ∉ callsign :=
  not_mem_of_isJoined (fun _ ht => not_mem_of_all ht.2 halphanum)
    (fun _ ht => not_mem_of_isRun ht halphanum) hc h.2

theorem not_mem_of_station (h : Station callsign) (halphanum : c.isAlphanum = false)
    (hc : c ≠ '-') : c ∉ callsign := by
  have hdigit : c.isDigit = false := by
    rw [Char.isAlphanum, Bool.or_eq_false_iff] at halphanum
    exact halphanum.2
  exact not_mem_of_isJoined (fun _ ht => not_mem_of_isRun ht halphanum)
    (fun _ ht => not_mem_of_isRun ht hdigit) hc h

theorem not_mem_of_pathElement (h : PathElement element) (halphanum : c.isAlphanum = false)
    (hhyphen : c ≠ '-') (hstar : c ≠ '*') : c ∉ element := by
  have hclass : (c.isAlphanum || c == '-') = false := by simp [halphanum, hhyphen]
  obtain ⟨call, hcall, rfl | rfl⟩ := h
  · exact not_mem_of_isRun hcall hclass
  · simpa [hstar] using not_mem_of_isRun hcall hclass

theorem isField_iff {holds : Char → Bool} {longest : Nat} {t : Text} :
    isField holds longest t = true ↔ IsRun holds 1 longest t := by
  simp only [isField, Bool.and_eq_true, decide_eq_true_eq, List.all_eq_true, and_assoc]
  exact Iff.rfl

/-- A base without a hyphen ends where the first hyphen is. -/
theorem isJoined_iff {base ssid : Text → Prop} (hbase : ∀ t, base t → '-' ∉ t) :
    IsJoined base ssid callsign ↔
      base (parts callsign).1 ∧ ∀ t ∈ (parts callsign).2, ssid t := by
  constructor
  · rintro ⟨t, ht, rfl | ⟨u, rfl, hu⟩⟩
    · have hsplit : splitFirst? '-' callsign = none :=
        splitFirst?_eq_none_iff.mpr (hbase callsign ht)
      have hparts : parts callsign = (callsign, none) := by rw [parts, hsplit]
      rw [hparts]
      exact ⟨ht, fun u hu => by cases hu⟩
    · have hsplit : splitFirst? '-' (t ++ '-' :: u) = some (t, u) :=
        splitFirst?_eq_some_iff.mpr ⟨rfl, hbase t ht⟩
      have hparts : parts (t ++ '-' :: u) = (t, some u) := by rw [parts, hsplit]
      rw [hparts]
      refine ⟨ht, fun v hv => ?_⟩
      cases hv
      exact hu
  · rintro ⟨ht, hssid⟩
    refine ⟨(parts callsign).1, ht, ?_⟩
    cases hsplit : splitFirst? '-' callsign with
    | none =>
      have hparts : parts callsign = (callsign, none) := by rw [parts, hsplit]
      exact .inl (by rw [hparts])
    | some cut =>
      obtain ⟨t, u⟩ := cut
      have hparts : parts callsign = (t, some u) := by rw [parts, hsplit]
      rw [hparts] at hssid ⊢
      exact .inr ⟨u, (splitFirst?_eq_some_iff.mp hsplit).1, hssid u rfl⟩

theorem option_all_iff {holds : Text → Bool} {t? : Option Text} :
    t?.all holds = true ↔ ∀ t ∈ t?, holds t = true := by
  cases t? <;> simp

theorem isStation_iff : isStation callsign = true ↔ Station callsign := by
  have hhyphen : ∀ t, IsRun Char.isAlphanum 1 6 t → '-' ∉ t :=
    fun t ht => not_mem_of_isRun ht (by decide)
  rw [Station, isJoined_iff hhyphen]
  simp only [isStation, Bool.and_eq_true, isField_iff, option_all_iff]

theorem isAscii_of_isAlphanum {c : Char} (h : c.isAlphanum = true) : c.toNat < 128 := by
  simp only [Char.isAlphanum, Char.isAlpha, Char.isUpper, Char.isLower, Char.isDigit,
    Bool.or_eq_true, Bool.and_eq_true, decide_eq_true_eq, UInt32.le_iff_toNat_le, ge_iff_le] at h
  change ((65 ≤ c.toNat ∧ c.toNat ≤ 90) ∨ (97 ≤ c.toNat ∧ c.toNat ≤ 122)) ∨
    (48 ≤ c.toNat ∧ c.toNat ≤ 57) at h
  omega

theorem byteLength_of_isJoined {base ssid : Text → Prop}
    (hbase : ∀ t, base t → ∀ c ∈ t, c.isAlphanum = true)
    (hssid : ∀ t, ssid t → ∀ c ∈ t, c.isAlphanum = true) (h : IsJoined base ssid callsign) :
    callsign.byteLength = callsign.length := by
  apply byteLength_eq_length
  obtain ⟨t, ht, rfl | ⟨u, rfl, hu⟩⟩ := h
  · exact fun c hc => isAscii_of_isAlphanum (hbase callsign ht c hc)
  · rw [List.forall_mem_append, List.forall_mem_cons]
    exact ⟨fun c hc => isAscii_of_isAlphanum (hbase t ht c hc), by decide,
      fun c hc => isAscii_of_isAlphanum (hssid u hu c hc)⟩

theorem isSource_iff : isSource callsign = true ↔ Source callsign := by
  have hhyphen : ∀ t : Text, (t ≠ [] ∧ ∀ c ∈ t, c.isAlphanum = true) → '-' ∉ t :=
    fun t ht => not_mem_of_all ht.2 (by decide)
  have hparts : isSource callsign = true ↔ 1 ≤ callsign.byteLength ∧ callsign.byteLength ≤ 9 ∧
      IsJoined (fun base => base ≠ [] ∧ ∀ c ∈ base, c.isAlphanum = true)
        (IsRun Char.isAlphanum 1 8) callsign := by
    rw [isJoined_iff hhyphen]
    simp only [isSource, Bool.and_eq_true, decide_eq_true_eq, bne_iff_ne, ne_eq, List.all_eq_true,
      isField_iff, option_all_iff, and_assoc]
  rw [hparts, Source]
  constructor
  · rintro ⟨_, hlength, hjoined⟩
    exact ⟨(length_le_byteLength callsign).trans hlength, hjoined⟩
  · rintro ⟨hlength, hjoined⟩
    -- The length is in bytes, and all characters of a source are ASCII.
    rw [byteLength_of_isJoined (fun t ht => ht.2) (fun t ht => ht.2.2) hjoined]
    refine ⟨?_, hlength, hjoined⟩
    obtain ⟨t, ⟨hne, _⟩, rfl | ⟨u, rfl, _⟩⟩ := hjoined
    · exact List.length_pos_iff.mpr hne
    · rw [List.length_append, List.length_cons]
      omega

theorem isPathElement_iff : isPathElement element = true ↔ PathElement element := by
  have hstar : ∀ {call : Text}, IsRun (fun c => c.isAlphanum || c == '-') 1 9 call →
      call.getLast? ≠ some '*' := by
    intro call hcall hlast
    exact not_mem_of_isRun hcall (by decide) (List.mem_of_getLast? hlast)
  constructor
  · intro h
    unfold isPathElement at h
    dsimp only at h
    split at h
    · next hlast =>
      obtain ⟨call, rfl⟩ := List.getLast?_eq_some_iff.mp hlast
      rw [List.dropLast_concat] at h
      exact ⟨call, isField_iff.mp h, .inr rfl⟩
    · exact ⟨element, isField_iff.mp h, .inl rfl⟩
  · rintro ⟨call, hcall, rfl | rfl⟩
    · rw [isPathElement, if_neg (hstar hcall)]
      exact isField_iff.mpr hcall
    · rw [isPathElement, List.getLast?_concat, if_pos rfl, List.dropLast_concat]
      exact isField_iff.mpr hcall

end Callsign

namespace Header

open Callsign Reading Text

variable {options : Options} {head source destination : Text} {elements : List Text}
  {header : Header} {e : HeaderError}

/-- The parts of a header, wherever the marks between them are. -/
structure Cut (head source destination : Text) (elements : List Text) : Prop where
  head_eq : head = source ++ '>' :: (destination ++ marked ',' elements)
  source_free : '>' ∉ source
  destination_free : ',' ∉ destination
  elements_free : ∀ element ∈ elements, ',' ∉ element

theorem exists_cut (h : '>' ∈ head) : ∃ source destination elements,
    Cut head source destination elements := by
  obtain ⟨source, route, rfl, hsource⟩ := List.eq_append_cons_of_mem h
  obtain ⟨destination, elements, rfl, hdestination, helements⟩ := exists_append_marked ',' route
  exact ⟨source, destination, elements, rfl, hsource, hdestination, helements⟩

theorem splitFirst?_of_cut (h : Cut head source destination elements) :
    splitFirst? '>' head = some (source, destination ++ marked ',' elements) :=
  splitFirst?_eq_some_iff.mpr ⟨h.head_eq, h.source_free⟩

theorem splitOn_of_cut (h : Cut head source destination elements) :
    (destination ++ marked ',' elements).splitOn ',' = destination :: elements :=
  splitOn_append_marked h.destination_free h.elements_free

theorem cut_unique {source' destination' : Text} {elements' : List Text}
    (h : Cut head source destination elements) (h' : Cut head source' destination' elements') :
    source = source' ∧ destination = destination' ∧ elements = elements' := by
  have hsplit := (splitFirst?_of_cut h).symm.trans (splitFirst?_of_cut h')
  rw [Option.some_inj, Prod.mk.injEq] at hsplit
  obtain ⟨hsource, hroute⟩ := hsplit
  have hparts := (splitOn_of_cut h).symm.trans ((congrArg _ hroute).trans (splitOn_of_cut h'))
  rw [List.cons.injEq] at hparts
  exact ⟨hsource, hparts⟩

def IsBlank (element : Text) : Prop := ∀ c ∈ element, isBlank c = true

def Destination (options : Options) (destination : Text) : Prop :=
  if options.acceptAnyDestination then destination ≠ [] ∧ ',' ∉ destination
  else Station destination

/-- A header as the grammar writes it, with elements that are kept and blank ones that are not. -/
structure Written (options : Options) (head : Text) (header : Header) (elements : List Text) :
    Prop where
  head_eq : head = header.source ++ '>' :: (header.destination ++ marked ',' elements)
  isSource : Source header.source
  isDestination : Destination options header.destination
  isElement : ∀ element ∈ elements, IsBlank element ∨ PathElement element
  path_eq : header.path = elements.filter fun element => !allBlank element

def PartFault (options : Options) (source destination : Text) (elements : List Text) :
    HeaderError → Prop
  | .missingSeparator => False
  | .invalidSource => ¬Source source
  | .missingDestination => destination = []
  | .invalidDestination => options.acceptAnyDestination = false ∧ ¬Station destination
  | .invalidPath => ∃ element ∈ elements, ¬IsBlank element ∧ ¬PathElement element

/-- Without the separator a header has no parts. -/
def Fault (options : Options) (head : Text) (e : HeaderError) : Prop :=
  (e = .missingSeparator ∧ '>' ∉ head) ∨
    ∃ source destination elements, Cut head source destination elements ∧
      PartFault options source destination elements e

/-- The order in which faults are looked for. -/
def rank : HeaderError → Nat
  | .missingSeparator => 0
  | .invalidSource => 1
  | .missingDestination => 2
  | .invalidDestination => 3
  | .invalidPath => 4

structure FirstFault (options : Options) (head : Text) (e : HeaderError) : Prop where
  fault : Fault options head e
  none_before : ∀ other, rank other < rank e → ¬Fault options head other

theorem decode_of_cut (h : Cut head source destination elements) :
    decode options head =
      if isSource source = false then .error .invalidSource
      else if destination = [] then .error .missingDestination
      else if acceptsDestination options destination = false then .error .invalidDestination
      else (decodePath elements).map fun path => ⟨source, destination, path⟩ := by
  rw [decode, splitFirst?_of_cut h]
  dsimp only
  rw [splitOn_of_cut h]
  cases destination with
  | nil => simp only [Bool.not_eq_true', if_true]
  | cons c t => simp only [Bool.not_eq_true', List.cons_ne_nil, if_false]

theorem acceptsDestination_iff :
    acceptsDestination options destination = true ↔
      (options.acceptAnyDestination = false → Station destination) := by
  rw [acceptsDestination, ← isStation_iff]
  cases options.acceptAnyDestination <;> simp

theorem isBlank_iff {element : Text} : allBlank element = true ↔ IsBlank element :=
  List.all_eq_true

theorem all_isPathElement_iff :
    (elements.filter fun element => !allBlank element).all isPathElement = true ↔
      ∀ element ∈ elements, IsBlank element ∨ PathElement element := by
  simp only [List.all_filter, List.all_eq_true, Bool.or_eq_true, Bool.not_not, isBlank_iff,
    isPathElement_iff]

theorem decodePath_eq_ok_iff {path : List Text} :
    decodePath elements = .ok path ↔
      (∀ element ∈ elements, IsBlank element ∨ PathElement element) ∧
        path = elements.filter fun element => !allBlank element := by
  rw [decodePath, ← all_isPathElement_iff]
  split
  · next hall =>
    rw [Except.ok.injEq]
    exact ⟨fun h => ⟨hall, h.symm⟩, fun h => h.2.symm⟩
  · next hall => exact ⟨fun h => (by cases h), fun h => absurd h.1 hall⟩

theorem decodePath_eq_error_iff :
    decodePath elements = .error e ↔
      e = .invalidPath ∧ ∃ element ∈ elements, ¬IsBlank element ∧ ¬PathElement element := by
  have hnegated : (∃ element ∈ elements, ¬IsBlank element ∧ ¬PathElement element) ↔
      ¬∀ element ∈ elements, IsBlank element ∨ PathElement element := by
    push Not
    rfl
  rw [hnegated, decodePath, ← all_isPathElement_iff]
  split
  · next hall => exact ⟨fun h => (by cases h), fun h => absurd hall h.2⟩
  · next hall =>
    rw [Except.error.injEq]
    exact ⟨fun h => ⟨h.symm, hall⟩, fun h => h.1.symm⟩

theorem firstFault_unique {other : HeaderError} (h : FirstFault options head e)
    (hother : FirstFault options head other) : e = other := by
  have hrank : rank e = rank other := by
    rcases lt_trichotomy (rank e) (rank other) with hlt | heq | hgt
    · exact absurd h.fault (hother.none_before e hlt)
    · exact heq
    · exact absurd hother.fault (h.none_before other hgt)
  cases e <;> cases other <;> first | rfl | cases hrank

theorem fault_iff_of_cut (h : Cut head source destination elements) :
    Fault options head e ↔ PartFault options source destination elements e := by
  constructor
  · rintro (⟨_, hseparator⟩ | ⟨source', destination', elements', h', hfault⟩)
    · exact absurd (by simp [h.head_eq]) hseparator
    · obtain ⟨rfl, rfl, rfl⟩ := cut_unique h h'
      exact hfault
  · exact fun hfault => .inr ⟨source, destination, elements, h, hfault⟩

theorem firstFault_of_cut (h : Cut head source destination elements)
    (hfault : PartFault options source destination elements e)
    (hbefore : ∀ other, rank other < rank e →
      ¬PartFault options source destination elements other) :
    FirstFault options head e :=
  ⟨(fault_iff_of_cut h).mpr hfault,
    fun other hlt hother => hbefore other hlt ((fault_iff_of_cut h).mp hother)⟩

theorem firstFault_of_decode (hdecode : decode options head = .error e) :
    FirstFault options head e := by
  by_cases hseparator : '>' ∈ head
  · obtain ⟨source, destination, elements, h⟩ := exists_cut hseparator
    rw [decode_of_cut h] at hdecode
    -- A check is reached when those before it have passed, so no earlier fault is there.
    split at hdecode
    · next hsource =>
      rw [← Bool.not_eq_true, isSource_iff] at hsource
      cases hdecode
      refine firstFault_of_cut h hsource fun other hlt => ?_
      cases other <;> simp_all [rank, PartFault]
    next hsource =>
    rw [Bool.not_eq_false, isSource_iff] at hsource
    split at hdecode
    · next hdestination =>
      cases hdecode
      refine firstFault_of_cut h hdestination fun other hlt => ?_
      cases other <;> simp_all [rank, PartFault]
    next hdestination =>
    split at hdecode
    · next haccepts =>
      rw [← Bool.not_eq_true, acceptsDestination_iff, Classical.not_imp] at haccepts
      cases hdecode
      refine firstFault_of_cut h haccepts fun other hlt => ?_
      cases other <;> simp_all [rank, PartFault]
    next haccepts =>
    rw [Bool.not_eq_false, acceptsDestination_iff] at haccepts
    obtain ⟨rfl, helements⟩ := decodePath_eq_error_iff.mp (map_eq_error_iff.mp hdecode)
    refine firstFault_of_cut h helements fun other hlt => ?_
    cases other <;> simp_all [rank, PartFault]
  · rw [decode, splitFirst?_eq_none_iff.mpr hseparator] at hdecode
    cases hdecode
    exact ⟨.inl ⟨rfl, hseparator⟩, fun other hlt => absurd hlt (Nat.not_lt_zero _)⟩

theorem not_mem_of_isElement {element : Text} {c : Char}
    (h : IsBlank element ∨ PathElement element) (hblank : isBlank c = false)
    (halphanum : c.isAlphanum = false) (hhyphen : c ≠ '-') (hstar : c ≠ '*') : c ∉ element := by
  rcases h with hspace | hpath
  · exact not_mem_of_all hspace hblank
  · exact not_mem_of_pathElement hpath halphanum hhyphen hstar

theorem destination_iff :
    Destination options destination ↔ destination ≠ [] ∧ ',' ∉ destination ∧
      (options.acceptAnyDestination = false → Station destination) := by
  rw [Destination]
  split
  · next haccept =>
    rw [haccept]
    simp
  · next hchecked =>
    rw [Bool.not_eq_true] at hchecked
    constructor
    · intro h
      refine ⟨?_, ?_, fun _ => h⟩
      · rintro rfl
        obtain ⟨t, ht, heq | ⟨u, heq, _⟩⟩ := h
        · rw [← heq] at ht
          exact absurd ht.1 (by decide)
        · simp at heq
      · exact not_mem_of_station h (by decide) (by decide)
    · exact fun h => h.2.2 hchecked

theorem cut_of_written (h : Written options head header elements) :
    Cut head header.source header.destination elements where
  head_eq := h.head_eq
  source_free := not_mem_of_source h.isSource (by decide) (by decide)
  destination_free := (destination_iff.mp h.isDestination).2.1
  elements_free element hmem := by
    exact not_mem_of_isElement (h.isElement element hmem) (by decide) (by decide) (by decide)
      (by decide)

theorem decode_eq_ok_iff :
    decode options head = .ok header ↔ ∃ elements, Written options head header elements := by
  constructor
  · intro hdecode
    by_cases hseparator : '>' ∈ head
    · obtain ⟨source, destination, elements, h⟩ := exists_cut hseparator
      rw [decode_of_cut h] at hdecode
      split at hdecode
      · cases hdecode
      next hsource =>
      split at hdecode
      · cases hdecode
      next hdestination =>
      split at hdecode
      · cases hdecode
      next haccepts =>
      rw [Bool.not_eq_false, isSource_iff] at hsource
      rw [Bool.not_eq_false, acceptsDestination_iff] at haccepts
      obtain ⟨path, hpath, rfl⟩ := map_eq_ok_iff.mp hdecode
      obtain ⟨helements, hkept⟩ := decodePath_eq_ok_iff.mp hpath
      exact ⟨elements, h.head_eq, hsource,
        destination_iff.mpr ⟨hdestination, h.destination_free, haccepts⟩, helements, hkept⟩
    · rw [decode, splitFirst?_eq_none_iff.mpr hseparator] at hdecode
      cases hdecode
  · rintro ⟨elements, h⟩
    obtain ⟨hne, _, haccepts⟩ := destination_iff.mp h.isDestination
    have hpath := decodePath_eq_ok_iff.mpr ⟨h.isElement, h.path_eq⟩
    rw [decode_of_cut (cut_of_written h), isSource_iff.mpr h.isSource,
      acceptsDestination_iff.mpr haccepts, if_neg (by decide), if_neg hne, if_neg (by decide),
      hpath]
    rfl

/-- Only a destination that is not checked can have a colon in it. -/
theorem colon_not_mem (hchecked : options.acceptAnyDestination = false)
    (h : decode options head = .ok header) : ':' ∉ head := by
  obtain ⟨elements, hwritten⟩ := decode_eq_ok_iff.mp h
  have hstation := (destination_iff.mp hwritten.isDestination).2.2 hchecked
  rw [hwritten.head_eq, List.mem_append, List.mem_cons, List.mem_append, not_or, not_or, not_or]
  refine ⟨not_mem_of_source hwritten.isSource (by decide) (by decide), by decide,
    not_mem_of_station hstation (by decide) (by decide), not_mem_marked (by decide) ?_⟩
  intro element hmem
  exact not_mem_of_isElement (hwritten.isElement element hmem) (by decide) (by decide) (by decide)
    (by decide)

theorem not_fault_of_written (h : Written options head header elements) :
    ¬Fault options head e := by
  obtain ⟨hne, _, haccepts⟩ := destination_iff.mp h.isDestination
  rw [fault_iff_of_cut (cut_of_written h)]
  cases e with
  | missingSeparator => exact id
  | invalidSource => exact fun hfault => hfault h.isSource
  | missingDestination => exact hne
  | invalidDestination => exact fun hfault => hfault.2 (haccepts hfault.1)
  | invalidPath =>
    rintro ⟨element, hmem, hblank, hpath⟩
    exact (h.isElement element hmem).elim hblank hpath

theorem decode_eq_error_iff : decode options head = .error e ↔ FirstFault options head e := by
  constructor
  · exact firstFault_of_decode
  · intro h
    cases hdecode : decode options head with
    | ok header =>
      obtain ⟨elements, hwritten⟩ := decode_eq_ok_iff.mp hdecode
      exact absurd h.fault (not_fault_of_written hwritten)
    | error other => rw [firstFault_unique h (firstFault_of_decode hdecode)]

/-- A header without blank elements. -/
def text (header : Header) : Text :=
  header.source ++ '>' :: (header.destination ++ marked ',' header.path)

theorem written_text (h : Written options head header elements) :
    Written options header.text header header.path where
  head_eq := rfl
  isSource := h.isSource
  isDestination := h.isDestination
  isElement element hmem := by
    rw [h.path_eq] at hmem
    exact h.isElement element (List.mem_of_mem_filter hmem)
  path_eq := by simp only [h.path_eq, List.filter_filter, Bool.and_self]

end Header

namespace Line

variable {options : Options} {now : Int} {line head body : Text} {e : HeaderError}

theorem split_of_header_error (hline : line ≠ [])
    (htrim : Text.trim isLineEnd line = head ++ ':' :: body)
    (hcolon : ':' ∉ head) (h : Header.decode options head = .error e) :
    split options line = .error (.invalidHeader e) := by
  have hcut : Text.splitFirst? ':' (Text.trim isLineEnd line) = some (head, body) :=
    Text.splitFirst?_eq_some_iff.mpr ⟨htrim, hcolon⟩
  have hempty : ¬line.isEmpty = true := fun hempty => hline (List.isEmpty_iff.mp hempty)
  rw [split, if_neg hempty, hcut]
  dsimp only
  rw [h]
  rfl

end Line

/-- A header is decoded just when the grammar writes it, to the parts that it is written from, blank
elements left out; and these make a header that says the same. Otherwise its first fault is the
error, and of the line nothing but its text is kept. -/
theorem Header.decode_grammar (options : Options) (head : Text) :
    (∀ header, decode options head = .ok header ↔
        ∃ elements, Written options head header elements) ∧
      (∀ header, decode options head = .ok header → decode options header.text = .ok header) ∧
      (∀ e, decode options head = .error e ↔ FirstFault options head e) ∧
      ∀ e now line body, decode options head = .error e → line ≠ [] →
        Text.trim Line.isLineEnd line = head ++ ':' :: body → ':' ∉ head →
        ∃ failure, Aprs.decode options now line = .error failure ∧
          failure.error = .invalidHeader e ∧ failure.record = { raw := line } := by
  refine ⟨fun _ => decode_eq_ok_iff, ?_, fun _ => decode_eq_error_iff, ?_⟩
  · intro header hdecode
    obtain ⟨elements, hwritten⟩ := decode_eq_ok_iff.mp hdecode
    exact decode_eq_ok_iff.mpr ⟨header.path, written_text hwritten⟩
  · intro e now line body hdecode hline htrim hcolon
    have hsplit := Line.split_of_header_error hline htrim hcolon hdecode
    refine ⟨⟨line, .invalidHeader e⟩, ?_, rfl, rfl⟩
    rw [Aprs.decode, Line.decodeWithin_of_split_error hsplit]
    rfl

/-- Blank elements are left out of the one header, and the other has a fault in each part. -/
theorem Header.decode_grammar_faults :
    (∃ header, decode {} "N0CALL-10>APRS,, ,TCPIP*".toList = .ok header ∧
        header = ⟨"N0CALL-10".toList, "APRS".toList, ["TCPIP*".toList]⟩ ∧
        decode {} "N0CALL-10>APRS,TCPIP*".toList = .ok header) ∧
      FirstFault {} "-AB>,WIDE_1".toList .invalidSource ∧
      ∃ failure, Aprs.decode {} 0 "-AB>,WIDE_1:!".toList = .error failure ∧
        failure.error = .invalidHeader .invalidSource ∧
        failure.record = { raw := "-AB>,WIDE_1:!".toList } := by
  have hok : decode {} "N0CALL-10>APRS,, ,TCPIP*".toList =
      .ok ⟨"N0CALL-10".toList, "APRS".toList, ["TCPIP*".toList]⟩ := by cbv
  have herror : decode {} "-AB>,WIDE_1".toList = .error .invalidSource := by cbv
  obtain ⟨_, hnormal, _, _⟩ := decode_grammar {} "N0CALL-10>APRS,, ,TCPIP*".toList
  obtain ⟨_, _, hfault, hline⟩ := decode_grammar {} "-AB>,WIDE_1".toList
  refine ⟨⟨_, hok, rfl, hnormal _ hok⟩, (hfault _).mp herror, ?_⟩
  exact hline _ 0 "-AB>,WIDE_1:!".toList ['!'] herror (by decide) (by decide) (by decide)

end Aprs
