import Aprs.Proofs.ReadBack
import Aprs.Proofs.Utf8Lines

/-!
What a run prints on the standard output: a line for each packet that it decodes. No character of a
document ends a line before the document does, and each document names the line it was read from.
-/

namespace Aprs

namespace Json

section Printable

variable {t u : Text} {c : Char}

/-- No control characters, the ends of lines among them. -/
def Printable (t : Text) : Prop := ∀ c ∈ t, 32 ≤ c.toNat

@[simp]
theorem printable_nil : Printable [] := fun _ h => absurd h List.not_mem_nil

@[simp]
theorem printable_cons : Printable (c :: t) ↔ 32 ≤ c.toNat ∧ Printable t := List.forall_mem_cons

@[simp]
theorem printable_append : Printable (t ++ u) ↔ Printable t ∧ Printable u := List.forall_mem_append

theorem Printable.of_isDigit (h : ∀ c ∈ t, c.isDigit = true) : Printable t := by
  intro c hc
  exact Nat.le_trans (by decide) (Char.isDigit_iff_toNat.mp (h c hc)).1

theorem printable_signed_toDigits (negative : Bool) (n : Nat) :
    Printable (Decimal.signed negative (Nat.toDigits 10 n)) := by
  have hdigits : Printable (Nat.toDigits 10 n) :=
    .of_isDigit fun _ => Text.isDigit_of_mem_toDigits
  cases negative with
  | false => exact hdigits
  | true => exact printable_cons.mpr ⟨by decide, hdigits⟩

theorem printable_numeral {n : JsonNumber} (h : ∀ c ∈ n.fraction, c.isDigit = true) :
    Printable n.text := by
  obtain ⟨negative, whole, fraction, exponent⟩ := n
  have hfraction : Printable fraction := .of_isDigit h
  have hexponent : ∀ e, Printable (JsonNumber.exponentText e) := by
    intro e
    rw [JsonNumber.exponentText, Decimal.intText]
    split <;> simp [printable_signed_toDigits]
  rw [JsonNumber.text, printable_append, printable_append]
  refine ⟨⟨printable_signed_toDigits negative whole, ?_⟩, ?_⟩
  · split <;> simp [hfraction]
  · cases exponent <;> simp [hexponent]

theorem printable_escape (c : Char) : Printable (escape c) := by
  have hall : ∀ n < 32, (Decimal.paddedHex 4 n).all (32 ≤ ·.toNat) = true := by decide
  have hhex : ∀ n < 32, Printable (Decimal.paddedHex 4 n) := fun n hn d hd =>
    of_decide_eq_true (List.all_eq_true.mp (hall n hn) d hd)
  fun_cases escape c
  case case8 hcontrol => simp [hhex c.toNat hcontrol]
  case case9 hplain => simpa using hplain
  all_goals simp

theorem printable_quote (t : Text) : Printable (quote t) := by
  have hescaped : Printable (t.flatMap escape) := by
    intro c hc
    obtain ⟨d, _, hmem⟩ := List.mem_flatMap.mp hc
    exact printable_escape d c hmem
  simp [quote, hescaped]

theorem printable_compactItems {items : List Json} (h : ∀ item ∈ items, Printable item.compact) :
    Printable (compactItems items) := by
  induction items with
  | nil => simp [compactItems]
  | cons item items ih =>
    rw [List.forall_mem_cons] at h
    simp [compactItems, h.1, ih h.2]

theorem printable_compactMembers {members : List (Text × Json)}
    (h : ∀ member ∈ members, Printable member.2.compact) : Printable (compactMembers members) := by
  induction members with
  | nil => simp [compactMembers]
  | cons member members ih =>
    rw [List.forall_mem_cons] at h
    simp [compactMembers, printable_quote, h.1, ih h.2]

/-- Documents are written without control characters, which strings hold escaped. -/
theorem Legible.printable_compact {json : Json} (h : Legible json) : Printable json.compact := by
  induction h with
  | null => simp [compact]
  | bool b => cases b <;> simp [compact, boolText]
  | number hn => exact printable_numeral hn
  | string t => exact printable_quote t
  | @array items _ ih =>
    cases items with
    | nil => simp [compact]
    | cons item items =>
      rw [List.forall_mem_cons] at ih
      simp [compact, ih.1, printable_compactItems ih.2]
  | @object members _ ih =>
    cases members with
    | nil => simp [compact]
    | cons member members =>
      rw [List.forall_mem_cons] at ih
      simp [compact, printable_quote, ih.1, printable_compactMembers ih.2]

end Printable

end Json

open Json

variable {t line : Text}

/-- A document has one member for the text of the line, and its value is that text. -/
theorem Packet.filter_raw {N : Type} (write : N → Json) (p : Packet N) :
    ∃ members, p.toJson write = object members ∧
      members.filter (fun member => member.1 == "raw".toList) =
        [("raw".toList, .string p.record.raw)] := by
  have hrecord : ∀ (r : Record N) (inner : Json),
      ((Record.names.zip (r.values write inner)).filter fun member => member.1 == "raw".toList) =
        [("raw".toList, .string r.raw)] := by
    intro r inner
    have hnames : ∀ name ∈ Record.names.tail, (name == "raw".toList) = false := by
      simp [Record.names]
    have hrest : ((Record.names.tail.zip (r.values write inner).tail).filter fun member =>
        member.1 == "raw".toList) = [] := by
      rw [List.filter_eq_nil_iff]
      intro member hmember
      rw [hnames _ (List.of_mem_zip hmember).1]
      exact Bool.false_ne_true
    exact congrArg (("raw".toList, Json.string r.raw) :: ·) hrest
  cases p with
  | plain r => exact ⟨_, rfl, hrecord r null⟩
  | forwarding r inner => exact ⟨_, rfl, hrecord r _⟩

theorem raw_of_decode {options : Options} {now : Int} {packet : Packet Quantity}
    (h : decode options now line = .ok packet) : packet.record.raw = line :=
  (Line.nested_of_decodeWithin (Reading.mapError_eq_ok_iff.mp h)).1

namespace CommandLine

variable {settings : Settings} {p : Progress} {ls : List Text}

/-- The packet that a line is decoded to, if it is neither skipped nor rejected. -/
def packet? (settings : Settings) (line : Text) : Option (Packet Quantity) :=
  if isSkipped line then none else (decode settings.options settings.now line).toOption

theorem step_bytes (settings : Settings) (hp : p.isBroken = false) (line : Text) :
    (p.step settings line.bytes).isBroken = false ∧
      (p.step settings line.bytes).documents =
        ((packet? settings line).map (document settings.pretty)).toList ++ p.documents := by
  rw [Progress.step, hp, if_neg Bool.false_ne_true, readLine, Text.ofBytes?_bytes, packet?]
  dsimp only
  by_cases hskipped : isSkipped line = true
  · rw [if_pos hskipped, if_pos hskipped]
    exact ⟨rfl, rfl⟩
  · rw [if_neg hskipped, if_neg hskipped]
    cases decode settings.options settings.now line <;> exact ⟨rfl, rfl⟩

theorem foldl_bytes (settings : Settings) (hp : p.isBroken = false) (ls : List Text) :
    ((ls.map Text.bytes).foldl (Progress.step settings) p).isBroken = false ∧
      ((ls.map Text.bytes).foldl (Progress.step settings) p).documents =
        ((ls.filterMap (packet? settings)).map (document settings.pretty)).reverse ++
          p.documents := by
  induction ls generalizing p with
  | nil => exact ⟨hp, rfl⟩
  | cons line ls ih =>
    obtain ⟨hstep, hdocuments⟩ := step_bytes settings hp line
    obtain ⟨hbroken, hall⟩ := ih hstep
    refine ⟨hbroken, ?_⟩
    rw [List.map_cons, List.foldl_cons, hall, hdocuments, List.filterMap_cons]
    cases packet? settings line <;> simp

theorem runLines_bytes (settings : Settings) (h : t.IsLines ls) :
    (runLines settings t.bytes).output =
        ((ls.filterMap (packet? settings)).map (document settings.pretty)).flatten ∧
      ∃ s, (runLines settings t.bytes).summary = some s ∧
        s.decoded = (ls.filterMap (packet? settings)).length := by
  obtain ⟨hbroken, hdocuments⟩ := foldl_bytes settings (p := {}) rfl ls
  rw [runLines_eq_outcome, progress, h.lines_bytes, Progress.outcome, hbroken]
  refine ⟨?_, _, rfl, ?_⟩
  · rw [hdocuments, List.append_nil, List.reverse_reverse]
  · rw [Progress.decodedCount, hdocuments]
    simp

theorem forall₂_filterMap {α β : Type} {R : β → α → Prop} {f : α → Option β}
    (h : ∀ a b, f a = some b → R b a) (l : List α) :
    List.Forall₂ R (l.filterMap f) (l.filter fun a => (f a).isSome) := by
  induction l with
  | nil => exact .nil
  | cons a l ih =>
    rw [List.filterMap_cons, List.filter_cons]
    cases hf : f a with
    | none => exact ih
    | some b => exact .cons (h a b hf) ih

/-- The document is an object that names the line as its raw text, once. -/
def Names (line document : Text) : Prop :=
  ∃ members, parse? document = some (.object members) ∧
    members.filter (fun member => member.1 == "raw".toList) = [("raw".toList, .string line)]

/-- What is printed for a packet that is not laid out, without the end of the line. -/
def compactText (packet : Packet Quantity) : Text :=
  ((packet.map Quantity.toFloat).toJson ofFloat).compact

theorem names_compactText {packet : Packet Quantity} (h : packet? settings line = some packet) :
    Names line (compactText packet) := by
  have hraw : packet.record.raw = line := by
    rw [packet?] at h
    split at h
    · cases h
    · cases hdecode : decode settings.options settings.now line with
      | error e =>
        rw [hdecode] at h
        cases h
      | ok found =>
        rw [hdecode] at h
        cases h
        exact raw_of_decode hdecode
  have hmap : (packet.map Quantity.toFloat).record.raw = packet.record.raw := by
    cases packet <;> rfl
  obtain ⟨members, hjson, hmembers⟩ := (packet.map Quantity.toFloat).filter_raw ofFloat
  have hparse := ((packet.map Quantity.toFloat).legible legible_ofFloat).parse?_text.1
  rw [hjson] at hparse
  refine ⟨members, ?_, ?_⟩
  · rw [compactText, hjson, hparse]
  · rw [hmembers, hmap, hraw]

/-- The standard output is one document on a line of its own for each line of the input that is
accepted, in the same order, and each names its line whatever is in it. -/
theorem run_output (environment : Environment) {words : List Text} {arguments : Arguments}
    (hwords : Invocation.ofWords words = .run arguments) (hpretty : arguments.pretty = false)
    (hinput : loadInput environment arguments.input = some t.bytes) :
    (settings? environment arguments = none → (run environment words).output = []) ∧
      ∀ settings, settings? environment arguments = some settings →
        ∃ ls documents, t.IsLines ls ∧
          (run environment words).output = (documents.map (· ++ ['\n'])).flatten ∧
          (∃ s, (run environment words).summary = some s ∧ s.decoded = documents.length) ∧
          (∀ document ∈ documents, ∀ c ∈ document, 32 ≤ c.toNat) ∧
          List.Forall₂ (fun document line => Names line document) documents
            (ls.filter fun line => (packet? settings line).isSome) := by
  rw [run_of_loadInput hwords hinput]
  refine ⟨fun hnone => by rw [hnone]; rfl, fun settings hsettings => ?_⟩
  have hcompact : settings.pretty = false := by
    rw [settings?] at hsettings
    simp only [Option.bind_eq_bind, Option.bind_eq_some_iff] at hsettings
    obtain ⟨_, _, _, _, hsettings⟩ := hsettings
    cases hsettings
    exact hpretty
  obtain ⟨ls, hlines⟩ := t.exists_isLines
  obtain ⟨houtput, hsummary⟩ := runLines_bytes settings hlines
  refine ⟨ls, (ls.filterMap (packet? settings)).map compactText, hlines, ?_, ?_, ?_, ?_⟩
  · rw [hsettings, Option.elim_some, houtput, List.map_map, hcompact]
    rfl
  · rw [hsettings, Option.elim_some, List.length_map]
    exact hsummary
  · intro document hmem
    obtain ⟨packet, _, rfl⟩ := List.mem_map.mp hmem
    exact ((packet.map Quantity.toFloat).legible legible_ofFloat).printable_compact
  · rw [List.forall₂_map_left_iff]
    exact forall₂_filterMap (R := fun packet line => Names line (compactText packet))
      (fun _ _ => names_compactText) ls

/-- A comment, a packet with signs that have to be escaped, a line that is rejected, and a packet
whose carriage return belongs to it because no line feed follows. -/
theorem run_output_escaped :
    let environment : Environment :=
      ⟨fun _ => none, Text.bytes "# b\nA>B:>\"\\\té\r\nX\nA>B:>\r".toList, 0⟩
    Invocation.ofWords [] = .run {} ∧ ({} : Arguments).pretty = false ∧
      loadInput environment none =
        some (Text.bytes "# b\nA>B:>\"\\\té\r\nX\nA>B:>\r".toList) ∧
      ∃ first second,
        (run environment []).output = first ++ '\n' :: (second ++ ['\n']) ∧
        (∀ c ∈ first, 32 ≤ c.toNat) ∧ (∀ c ∈ second, 32 ≤ c.toNat) ∧
        Names "A>B:>\"\\\té".toList first ∧ Names "A>B:>\r".toList second := by
  intro environment
  have hwords : Invocation.ofWords [] = .run {} := rfl
  have hsettings : settings? environment {} = some ⟨{}, false, 0⟩ := rfl
  obtain ⟨_, hrun⟩ := run_output environment hwords rfl rfl
  obtain ⟨ls, documents, hlines, houtput, _, hprintable, hnames⟩ := hrun _ hsettings
  have haccepted : (ls.filter fun line => (packet? ⟨{}, false, 0⟩ line).isSome) =
      ["A>B:>\"\\\té".toList, "A>B:>\r".toList] := by
    rw [hlines.eq_filterMap]
    decide +kernel
  rw [haccepted] at hnames
  obtain _ | ⟨hfirst, _ | ⟨hsecond, _ | _⟩⟩ := hnames
  refine ⟨hwords, rfl, rfl, _, _, ?_, ?_, ?_, hfirst, hsecond⟩
  · rw [houtput]
    simp
  · exact hprintable _ (by simp)
  · exact hprintable _ (by simp)

end CommandLine

end Aprs
