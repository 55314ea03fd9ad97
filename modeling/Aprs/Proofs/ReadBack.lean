import Aprs.CommandLine
import Aprs.Proofs.MeasurementBounds
import Aprs.Proofs.Nesting

/-!
Documents of decoded packets as their readers see them. What a packet measures is a number in the
document; a coefficient is one as long as its numeral is below the limit, and is null beyond it,
which readers refuse with the whole document.
-/

namespace Aprs

open Json Reading Rounding

section Maps

variable {M N : Type} (f : M → N)

theorem TelemetryDefs.numbers_map (d : TelemetryDefs M) :
    (d.map f).numbers = d.numbers.map f := by
  cases h : d.eqns with
  | none => simp [numbers, TelemetryDefs.map, h]
  | some rows =>
    simp [numbers, TelemetryDefs.map, h, Vector.toList_map, List.flatMap_map, List.map_flatMap]

theorem flatMap_toList_map (os : List (Option M)) :
    (os.map (Option.map f)).flatMap Option.toList = (os.flatMap Option.toList).map f := by
  rw [List.flatMap_map, List.map_flatMap]
  congr 1
  funext o
  exact Option.toList_map

theorem Weather.numbers_map (w : Weather M) : (w.map f).numbers = w.numbers.map f :=
  flatMap_toList_map f w.readings

theorem Record.coefficients_map (r : Record M) :
    (r.map f).coefficients = r.coefficients.map f := by
  cases h : r.telemetryDefs <;>
    simp [coefficients, Record.map, h, TelemetryDefs.numbers_map]

theorem Record.numbers_map (r : Record M) : (r.map f).numbers = r.numbers.map f := by
  have hreadings : (r.map f).readings.flatMap Option.toList =
      (r.readings.flatMap Option.toList).map f := flatMap_toList_map f r.readings
  have hphg : (r.map f).phg.elim [] Phg.numbers = (r.phg.elim [] Phg.numbers).map f := by
    cases h : r.phg <;> simp [Record.map, h, Phg.map, Phg.numbers]
  have hdefs : (r.map f).telemetryDefs.elim [] TelemetryDefs.numbers =
      (r.telemetryDefs.elim [] TelemetryDefs.numbers).map f := r.coefficients_map f
  have hweather : (r.map f).weather.elim [] Weather.numbers =
      (r.weather.elim [] Weather.numbers).map f := by
    cases h : r.weather <;> simp [Record.map, h, Weather.numbers_map]
  simp only [numbers, List.map_append, hreadings, hphg, hdefs, hweather]

theorem Packet.records_map (p : Packet M) : (p.map f).records = p.records.map (Record.map f) := by
  induction p with
  | plain r => rfl
  | forwarding r p ih => rw [map, records, records, List.map_cons, ih]

theorem Packet.numbers_map (p : Packet M) : (p.map f).numbers = p.numbers.map f := by
  rw [numbers, records_map, List.flatMap_map, numbers, List.map_flatMap]
  simp only [Record.numbers_map]

theorem Packet.length_records (p : Packet M) : p.records.length = p.levels + 1 := by
  induction p with
  | plain r => rfl
  | forwarding r p ih => rw [records, levels, List.length_cons, ih]

theorem Packet.levels_map (p : Packet M) : (p.map f).levels = p.levels := by
  induction p with
  | plain r => rfl
  | forwarding r p ih => rw [map, levels, levels, ih]

end Maps

theorem CommandLine.parse?_document (pretty : Bool) (packet : Packet Quantity) :
    parse? (document pretty packet) = some ((packet.map Quantity.toFloat).toJson ofFloat) := by
  have hlegible := (packet.map Quantity.toFloat).legible legible_ofFloat
  have hend : ∀ c ∈ ['\n'], isBlank c = true := by simp [isBlank]
  rw [document]
  cases pretty with
  | true =>
    rw [if_pos rfl, pretty_eq_laidOut 0]
    exact hlegible.parse?_laidOut .lines 0 hend
  | false =>
    rw [if_neg (by decide), compact_eq_laidOut 0]
    exact hlegible.parse?_laidOut .none 0 hend

namespace Packet

variable {p : Packet Float} {read : Json → Option Float}

/-- A document without nulls among its numbers is accepted by a reader that accepts those. -/
theorem isSome_ofJson? (hfinite : ∀ x ∈ p.numbers, isFinite x = true)
    (hread : ∀ x ∈ p.numbers, (read (ofFloat x)).isSome = true)
    (hdepth : p.levels + 4 ≤ deepestLevel) :
    (ofJson? read (p.toJson ofFloat)).isSome = true := by
  have hrestores : ∀ x ∈ p.numbers,
      Restores ofFloat read x ((read (ofFloat x)).getD x) := by
    intro x hx
    obtain ⟨y, hy⟩ := Option.isSome_iff_exists.mp (hread x hx)
    refine ⟨?_, by rw [hy, Option.getD_some]⟩
    rw [Ne, ofFloat_eq_null_iff, hfinite x hx]
    decide
  rw [ofJson?, (restores hrestores (by rw [length_records]; omega)).read_write]
  rfl

/-- A coefficient that is no number is written as null, for which there is none. -/
theorem ofJson?_eq_none {r : Record Float} {x : Float} (hnull : read null = none)
    (hr : r ∈ p.records) (hx : x ∈ r.coefficients) (hfinite : isFinite x = false) :
    ofJson? read (p.toJson ofFloat) = none := by
  rw [Record.coefficients] at hx
  cases hd : r.telemetryDefs with
  | none =>
    rw [hd] at hx
    cases hx
  | some d =>
    rw [hd] at hx
    have hread : read (ofFloat x) = none := by rw [ofFloat_eq_null_iff.mpr hfinite, hnull]
    exact ofJsonWithin?_eq_none hread hr hd hx deepestLevel

end Packet

theorem Decimal.abs_toRat (d : Decimal) : |d.toRat| = d.digits / 10 ^ d.places := by
  have hmagnitude : (0 : Rat) ≤ d.digits / (tenTo d.places : Nat) := by positivity
  have htenTo : ((tenTo d.places : Nat) : Rat) = 10 ^ d.places := Nat.cast_pow 10 d.places
  rw [toRat, ← htenTo]
  split
  · rw [abs_neg, abs_of_nonneg hmagnitude]
  · exact abs_of_nonneg hmagnitude

section Decoding

variable {options : Options} {now : Int} {line : Text} {packet : Packet Quantity}

theorem within_of_decode (h : decode options now line = .ok packet) :
    ∀ r ∈ packet.records, r.Within 131 := by
  refine Line.decodeWithin_induction
    (motive := fun _ packet => ∀ r ∈ packet.records, r.Within 131) ?plain ?forwarding
    (mapError_eq_ok_iff.mp h)
  case plain =>
    intro line header type content report _ _ hreport r hr
    obtain rfl := List.mem_singleton.mp hr
    exact Record.within_withReport hreport
  case forwarding =>
    intro line header content inner _ ih r hr
    rcases List.mem_cons.mp hr with rfl | hr
    · exact Record.within_of_absent rfl rfl
    · exact ih r hr

/-- What a decoded packet measures is a number, and a coefficient is one as long as its numeral is
below the limit. Readers that read numbers and no null accept the document of the packet just where
all numbers in it are there. -/
theorem decode_document (hdepth : options.maxThirdPartyDepth ≤ 100)
    (h : decode options now line = .ok packet) {read : Json → Option Float}
    (hnull : read null = none)
    (hread : ∀ x ∈ (packet.map Quantity.toFloat).numbers, isFinite x = true →
      ((parse? (ofFloat x).compact).bind read).isSome = true) :
    (∀ r ∈ packet.records, ∀ q ∈ r.measurements, isFinite q.toFloat = true) ∧
      (∀ r ∈ packet.records, ∀ q ∈ r.coefficients, ∃ d : Decimal, q = .decimal d ∧
        (isFinite q.toFloat = true ↔ |d.toRat| < limit)) ∧
      ∀ pretty, ((parse? (CommandLine.document pretty packet)).bind
          (Packet.ofJson? read)).isSome = true ↔
        ∀ x ∈ (packet.map Quantity.toFloat).numbers, isFinite x = true := by
  have hwithin := within_of_decode h
  have hmeasurements : ∀ r ∈ packet.records, ∀ q ∈ r.measurements, isFinite q.toFloat = true :=
    fun r hr q hq => ((hwithin r hr).measurements q hq).isFinite (by decide)
  refine ⟨hmeasurements, ?_, ?_⟩
  · intro r hr q hq
    obtain ⟨d, rfl⟩ := (hwithin r hr).coefficients q hq
    refine ⟨d, rfl, ?_⟩
    rw [d.abs_toRat]
    exact d.isFinite_toFloat_iff
  · intro pretty
    rw [CommandLine.parse?_document, Option.bind_some]
    constructor
    · intro haccepted x hx
      rw [Packet.numbers_map, List.mem_map] at hx
      obtain ⟨q, hq, rfl⟩ := hx
      obtain ⟨r, hr, hq⟩ := List.mem_flatMap.mp hq
      rcases Record.mem_numbers_iff.mp hq with hq | hq
      · exact hmeasurements r hr q hq
      · -- A null stands in a vector of numbers, and there are no optional ones in it.
        by_contra hfinite
        have hrecord : r.map Quantity.toFloat ∈ (packet.map Quantity.toFloat).records := by
          rw [Packet.records_map]
          exact List.mem_map_of_mem hr
        have hcoefficient : q.toFloat ∈ (r.map Quantity.toFloat).coefficients := by
          rw [Record.coefficients_map]
          exact List.mem_map_of_mem hq
        rw [Packet.ofJson?_eq_none hnull hrecord hcoefficient (Bool.not_eq_true _ ▸ hfinite)]
          at haccepted
        cases haccepted
    · intro hfinite
      refine Packet.isSome_ofJson? hfinite ?_ ?_
      · intro x hx
        have haccepted := hread x hx (hfinite x hx)
        rwa [(legible_ofFloat x).parse?_text.1, Option.bind_some] at haccepted
      · have hlevels := Line.levels_le_of_decodeWithin (mapError_eq_ok_iff.mp h)
        rw [Packet.levels_map, Packet.deepestLevel]
        omega

/-- A line that defines the square term of the first channel. -/
def equationsLine (coefficient : Text) : Text :=
  "N0CALL>APRS::N0CALL   :EQNS.".toList ++ coefficient

theorem exists_decode_of_toOption {line : Text} {f : Packet Quantity → α} {a : α}
    (h : ((decode {} 0 line).map f).toOption = some a) :
    ∃ packet, decode {} 0 line = .ok packet ∧ f packet = a := by
  cases hdecode : decode {} 0 line with
  | ok packet =>
    rw [hdecode] at h
    exact ⟨packet, rfl, Option.some.inj h⟩
  | error failure =>
    rw [hdecode] at h
    cases h

/-- 308 nines are below the limit. -/
theorem decode_document_forwarded :
    ∃ packet, decode {} 0 ("N1GATE>APRS:\x7d".toList ++ equationsLine (List.replicate 308 '9')) =
        .ok packet ∧
      (∀ x ∈ (packet.map Quantity.toFloat).numbers, isFinite x = true ∧
        ((parse? (ofFloat x).compact).bind Json.toFloat?).isSome = true) ∧
      ∀ pretty, ((parse? (CommandLine.document pretty packet)).bind
        (Packet.ofJson? Json.toFloat?)).isSome = true := by
  obtain ⟨packet, hpacket, hnumbers⟩ := exists_decode_of_toOption
    (show ((decode {} 0 ("N1GATE>APRS:\x7d".toList ++
      equationsLine (List.replicate 308 '9'))).map Packet.numbers).toOption =
        some [.decimal ⟨false, 10 ^ 308 - 1, 0⟩, 1, 0, 0, 1, 0, 0, 1, 0, 0, 1, 0, 0, 1, 0] by
      decide +kernel)
  have hread : ∀ x ∈ (packet.map Quantity.toFloat).numbers, isFinite x = true ∧
      ((parse? (ofFloat x).compact).bind Json.toFloat?).isSome = true := by
    rw [Packet.numbers_map, hnumbers]
    decide +kernel
  have hnull : Json.toFloat? null = none := rfl
  obtain ⟨-, -, hdocument⟩ := decode_document (by decide) hpacket hnull
    fun x hx _ => (hread x hx).2
  exact ⟨packet, hpacket, hread, fun pretty => (hdocument pretty).mpr fun x hx => (hread x hx).1⟩

/-- 309 nines are not. -/
theorem document_refused :
    ∃ packet, decode {} 0 (equationsLine (List.replicate 309 '9')) = .ok packet ∧
      (∃ x ∈ (packet.map Quantity.toFloat).numbers, isFinite x = false) ∧
      ∀ pretty, (parse? (CommandLine.document pretty packet)).bind
        (Packet.ofJson? Json.toFloat?) = none := by
  obtain ⟨packet, hpacket, hcoefficients⟩ := exists_decode_of_toOption
    (show ((decode {} 0 (equationsLine (List.replicate 309 '9'))).map
        fun packet => packet.records.map Record.coefficients).toOption =
      some [[.decimal ⟨false, 10 ^ 309 - 1, 0⟩, 1, 0, 0, 1, 0, 0, 1, 0, 0, 1, 0, 0, 1, 0]] by
      decide +kernel)
  have hfinite : isFinite (Quantity.decimal ⟨false, 10 ^ 309 - 1, 0⟩).toFloat = false := by
    decide +kernel
  have hmem := hcoefficients ▸ List.mem_singleton_self _
  obtain ⟨r, hr, hr'⟩ := List.mem_map.mp hmem
  have hrecord : r.map Quantity.toFloat ∈ (packet.map Quantity.toFloat).records := by
    rw [Packet.records_map]
    exact List.mem_map_of_mem hr
  have hcoefficient : (Quantity.decimal ⟨false, 10 ^ 309 - 1, 0⟩).toFloat ∈
      (r.map Quantity.toFloat).coefficients := by
    rw [Record.coefficients_map, hr']
    exact List.mem_map_of_mem List.mem_cons_self
  refine ⟨packet, hpacket, ⟨_, ?_, hfinite⟩, fun pretty => ?_⟩
  · exact List.mem_flatMap.mpr ⟨_, hrecord, Record.mem_numbers_iff.mpr (.inr hcoefficient)⟩
  · rw [CommandLine.parse?_document, Option.bind_some]
    exact Packet.ofJson?_eq_none rfl hrecord hcoefficient hfinite

end Decoding

end Aprs
