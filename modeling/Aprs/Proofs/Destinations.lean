import Aprs.Proofs.Filling
import Aprs.Proofs.Line

/-!
The check of destinations. Decoding with the check and without it differ in one error only, which
hides what the line says otherwise: the strict decoder rejects a line for a destination, or answers
as the lenient one does. The check is made again at each level of a line that forwards others.
-/

namespace Aprs

def Options.strict (options : Options) : Options := { options with acceptAnyDestination := false }

def Options.lenient (options : Options) : Options := { options with acceptAnyDestination := true }

/-- The strict answer is the lenient one, or a refusal where the lenient one, if it is a value, is
one to be refused. -/
def Relaxed {ε α : Type} (refused : α → Prop) (refusal : ε) (strict lenient : Except ε α) : Prop :=
  strict = lenient ∨ strict = .error refusal ∧ ∀ a, lenient = .ok a → refused a

namespace Relaxed

open Reading

variable {ε δ α β : Type} {refused : α → Prop} {refused' : β → Prop} {refusal : ε}
  {strict lenient : Except ε α}

theorem of_eq (x : Except ε α) : Relaxed refused refusal x x := .inl rfl

theorem bind (h : Relaxed refused refusal strict lenient) {f : α → Except ε β}
    (hf : ∀ a b, refused a → f a = .ok b → refused' b) :
    Relaxed refused' refusal (strict >>= f) (lenient >>= f) := by
  rcases h with rfl | ⟨rfl, hrefused⟩
  · exact of_eq _
  · refine .inr ⟨rfl, fun b hb => ?_⟩
    obtain ⟨a, ha, hfa⟩ := bind_eq_ok_iff.mp hb
    exact hf a b (hrefused a ha) hfa

theorem map (h : Relaxed refused refusal strict lenient) {f : α → β}
    (hf : ∀ a, refused a → refused' (f a)) :
    Relaxed refused' refusal (strict.map f) (lenient.map f) := by
  rcases h with rfl | ⟨rfl, hrefused⟩
  · exact of_eq _
  · refine .inr ⟨rfl, fun b hb => ?_⟩
    obtain ⟨a, ha, rfl⟩ := map_eq_ok_iff.mp hb
    exact hf a (hrefused a ha)

theorem mapError (h : Relaxed refused refusal strict lenient) (f : ε → δ) :
    Relaxed refused (f refusal) (strict.mapError f) (lenient.mapError f) := by
  rcases h with rfl | ⟨rfl, hrefused⟩
  · exact of_eq _
  · exact .inr ⟨rfl, fun a ha => hrefused a (mapError_eq_ok_iff.mp ha)⟩

end Relaxed

variable {options : Options}

/-- The destination is checked after all that comes before it in the header, and before the path. -/
theorem Header.decode_relaxed (options : Options) (head : Text) :
    Relaxed (fun header : Header => Callsign.isStation header.destination = false)
      .invalidDestination (decode options.strict head) (decode options.lenient head) := by
  unfold decode
  split
  · exact .of_eq _
  · split
    · exact .of_eq _
    · split
      · exact .of_eq _
      · exact .of_eq _
      · next destination elements _ _ =>
        cases hstation : Callsign.isStation destination with
        | true =>
          have haccepts : ∀ options, acceptsDestination options destination = true := by
            intro options
            rw [acceptsDestination, hstation, Bool.or_true]
          rw [haccepts, haccepts]
          exact .of_eq _
        | false =>
          refine .inr ⟨?_, ?_⟩
          · rw [show acceptsDestination options.strict destination = false from hstation]
            rfl
          · intro header hheader
            rw [show acceptsDestination options.lenient destination = true from rfl] at hheader
            obtain ⟨path, _, rfl⟩ := Reading.map_eq_ok_iff.mp hheader
            exact hstation

namespace Line

theorem split_relaxed (options : Options) (line : Text) :
    Relaxed (fun parts : Header × Char × Text => Callsign.isStation parts.1.destination = false)
      (.invalidHeader .invalidDestination) (split options.strict line)
      (split options.lenient line) := by
  unfold split
  split
  · exact .of_eq _
  · split
    · exact .of_eq _
    · next head body _ =>
      refine ((Header.decode_relaxed options head).mapError DecodeError.invalidHeader).bind ?_
      intro header parts hdestination hparts
      split at hparts
      · cases hparts
      · next type content _ =>
        obtain ⟨_, _, hparts⟩ := Reading.bind_eq_ok_iff.mp hparts
        cases Reading.pure_eq_ok_iff.mp hparts
        exact hdestination

/-- A refusal at any level is one for the destination of a record at that level. -/
theorem decodeWithin_relaxed (options : Options) (now : Int) (levels : Nat) (line : Text) :
    Relaxed
      (fun packet : Packet Quantity =>
        ∃ r ∈ packet.records, Callsign.isStation r.destination = false)
      (.invalidHeader .invalidDestination) (decodeWithin options.strict now levels line)
      (decodeWithin options.lenient now levels line) := by
  induction levels, line using levels_induction options.lenient with
  | @rejected levels line e hsplit =>
    rw [decodeWithin_of_split_error hsplit]
    rcases split_relaxed options line with heq | ⟨hstrict, _⟩
    · rw [decodeWithin_of_split_error (heq.trans hsplit)]
      exact .of_eq _
    · rw [decodeWithin_of_split_error hstrict]
      exact .inr ⟨rfl, fun packet h => by cases h⟩
  | @report levels line header type content hsplit htype =>
    rw [decodeWithin_of_report hsplit htype]
    -- The report itself does not look at the options.
    rcases split_relaxed options line with heq | ⟨hstrict, hrefused⟩
    · rw [decodeWithin_of_report (heq.trans hsplit) htype]
      exact .of_eq _
    · rw [decodeWithin_of_split_error hstrict]
      refine .inr ⟨rfl, fun packet hpacket => ?_⟩
      obtain ⟨report, _, rfl⟩ := Reading.map_eq_ok_iff.mp hpacket
      refine ⟨_, List.mem_singleton_self _, ?_⟩
      rw [(Record.header_withReport report).2.2.1]
      exact hrefused _ hsplit
  | @tooDeep line header content hsplit =>
    rw [decodeWithin_zero_of_forwarding hsplit]
    rcases split_relaxed options line with heq | ⟨hstrict, _⟩
    · rw [decodeWithin_zero_of_forwarding (heq.trans hsplit)]
      exact .of_eq _
    · rw [decodeWithin_of_split_error hstrict]
      exact .inr ⟨rfl, fun packet h => by cases h⟩
  | @forwarding levels line header content hsplit ih =>
    rw [decodeWithin_succ_of_forwarding hsplit]
    rcases split_relaxed options line with heq | ⟨hstrict, hrefused⟩
    · rw [decodeWithin_succ_of_forwarding (heq.trans hsplit)]
      refine ih.map fun packet => ?_
      rintro ⟨r, hr, hdestination⟩
      exact ⟨r, List.mem_cons_of_mem _ hr, hdestination⟩
    · rw [decodeWithin_of_split_error hstrict]
      refine .inr ⟨rfl, fun packet hpacket => ?_⟩
      obtain ⟨inner, _, rfl⟩ := Reading.map_eq_ok_iff.mp hpacket
      exact ⟨_, List.mem_cons_self .., hrefused _ hsplit⟩

end Line

/-- Without the check no packet is lost or changed and no other error goes away; what it adds are
packets with a destination, in some record, that is no callsign of a station. -/
theorem decode_lenient (options : Options) (now : Int) (line : Text) :
    (∀ packet, decode options.strict now line = .ok packet →
        decode options.lenient now line = .ok packet) ∧
      (∀ failure, decode options.strict now line = .error failure →
        failure.error ≠ .invalidHeader .invalidDestination →
        decode options.lenient now line = .error failure) ∧
      ∀ packet, decode options.lenient now line = .ok packet →
        (∀ r ∈ packet.records, Callsign.isStation r.destination = true) →
        decode options.strict now line = .ok packet := by
  have hrelaxed := (Line.decodeWithin_relaxed options now options.maxThirdPartyDepth line).mapError
    fun error => Failure.mk line error
  change Relaxed _ _ (decode options.strict now line) (decode options.lenient now line) at hrelaxed
  rcases hrelaxed with heq | ⟨hstrict, hrefused⟩
  · rw [heq]
    exact ⟨fun _ h => h, fun _ h _ => h, fun _ h _ => h⟩
  · rw [hstrict]
    refine ⟨?_, ?_, ?_⟩
    · intro packet hpacket
      cases hpacket
    · intro failure hfailure herror
      cases hfailure
      exact absurd rfl herror
    · intro packet hpacket hstations
      obtain ⟨r, hr, hdestination⟩ := hrefused packet hpacket
      rw [hstations r hr] at hdestination
      cases hdestination

/-- A forwarded line that both decoders accept, and one with a path that neither does. -/
theorem decode_lenient_forwarded :
    (∃ packet,
      decode (Options.lenient {}) 0 "N1GATE>APRS:\x7dN0CALL>APRS-1:>hi".toList = .ok packet ∧
        (∀ r ∈ packet.records, Callsign.isStation r.destination = true) ∧
        decode (Options.strict {}) 0 "N1GATE>APRS:\x7dN0CALL>APRS-1:>hi".toList = .ok packet) ∧
      ∃ failure, decode (Options.strict {}) 0 "N0CALL>APRS,WIDE_1:>hi".toList = .error failure ∧
        failure.error ≠ .invalidHeader .invalidDestination ∧
        decode (Options.lenient {}) 0 "N0CALL>APRS,WIDE_1:>hi".toList = .error failure := by
  have hdestinations :
      (decode (Options.lenient {}) 0 "N1GATE>APRS:\x7dN0CALL>APRS-1:>hi".toList).map
        (fun packet => packet.records.map (·.destination)) =
          .ok ["APRS".toList, "APRS-1".toList] := by cbv
  obtain ⟨packet, hpacket, hdestinations⟩ := Reading.map_eq_ok_iff.mp hdestinations
  have hstations : ∀ r ∈ packet.records, Callsign.isStation r.destination = true := by
    intro r hr
    have hmem : r.destination ∈ ["APRS".toList, "APRS-1".toList] :=
      hdestinations ▸ List.mem_map_of_mem hr
    simp only [List.mem_cons, List.not_mem_nil, or_false] at hmem
    rcases hmem with h | h <;> rw [h] <;> decide
  have hpath : decode (Options.strict {}) 0 "N0CALL>APRS,WIDE_1:>hi".toList =
      .error ⟨"N0CALL>APRS,WIDE_1:>hi".toList, .invalidHeader .invalidPath⟩ := by cbv
  exact ⟨⟨packet, hpacket, hstations, (decode_lenient {} 0 _).2.2 packet hpacket hstations⟩,
    _, hpath, by decide, (decode_lenient {} 0 _).2.1 _ hpath (by decide)⟩

end Aprs
