import Aprs.Proofs.Filling
import Aprs.Proofs.Forwarding
import Aprs.Proofs.Globe

/-!
How deep lines lie in one another. Each level takes at least five bytes off a line, so the text
itself bounds the depth of a packet. The depth in the options comes on top of that: where it is not
what stops the decoder, a larger one changes nothing.
-/

namespace Aprs

open Reading

/-- How many packets lie in one another below the outermost one. -/
def Packet.levels {N : Type} : Packet N → Nat
  | plain _ => 0
  | forwarding _ p => p.levels + 1

/-- Each line ends the one that forwards it, line ends aside, and is shorter. -/
def Packet.Nested {N : Type} : Packet N → Prop
  | plain _ => True
  | forwarding r p =>
    p.record.raw <:+ Text.trimEnd Line.isLineEnd r.raw ∧
      p.record.raw ≠ Text.trimEnd Line.isLineEnd r.raw ∧ p.Nested

variable {options : Options} {now : Int} {levels : Nat} {line content : Text} {header : Header}
  {type : Char}

/-- A source, the sign after it and a destination. -/
theorem Header.byteLength_of_decode {head : Text} (h : decode options head = .ok header) :
    3 ≤ head.byteLength := by
  rw [decode] at h
  split at h
  · cases h
  · next source route hsplit =>
    obtain ⟨rfl, _⟩ := Text.splitFirst?_eq_some_iff.mp hsplit
    split at h
    · cases h
    · next hsource =>
      rw [Bool.not_eq_true', Bool.not_eq_false] at hsource
      obtain ⟨c, t, rfl, _⟩ := Line.exists_cons_of_isSource hsource
      have hroute : route ≠ [] := by
        rintro rfl
        cases h
      have hlength := Text.length_le_byteLength ((c :: t) ++ '>' :: route)
      have hpositive := List.length_pos_iff.mpr hroute
      simp only [List.length_append, List.length_cons] at hlength
      omega

namespace Line

/-- A header, the colon and a type come before the content. -/
theorem exists_append_of_split (h : split options line = .ok (header, type, content)) :
    ∃ start : Text, Text.trimEnd isLineEnd line = start ++ content ∧ 5 ≤ start.byteLength := by
  obtain ⟨_, head, body, htrim, _, hheader, htype, _⟩ := split_eq_ok_iff.mp h
  obtain ⟨before, hbefore⟩ := Text.suffix_trim isLineEnd line
  obtain ⟨opening, hopening, hpositive⟩ :
      ∃ opening : Text, body = opening ++ content ∧ 0 < opening.byteLength := by
    unfold splitType? at htype
    split at htype
    · next rest hstart =>
      cases htype
      exact ⟨garbledQuote, Text.dropPrefix?_eq_some hstart, by decide⟩
    · split at htype
      · cases htype
        exact ⟨[type], rfl, type.utf8Size_pos⟩
      · cases htype
  have hhead := Header.byteLength_of_decode hheader
  refine ⟨before ++ (head ++ ':' :: opening), ?_, ?_⟩
  · rw [← hbefore, htrim, hopening]
    simp
  · simp only [Text.byteLength_append, Text.byteLength_cons]
    have hcolon : ':'.utf8Size = 1 := by decide
    omega

/-- Every level takes five bytes at least. -/
theorem byteLength_of_split (h : split options line = .ok (header, type, content)) :
    5 + content.byteLength ≤ line.byteLength := by
  obtain ⟨start, hstart, hlength⟩ := exists_append_of_split h
  obtain ⟨after, hafter⟩ := Text.prefix_trimEnd isLineEnd line
  rw [← hafter, hstart, Text.byteLength_append, Text.byteLength_append]
  omega

theorem properSuffix_of_split (h : split options line = .ok (header, type, content)) :
    content <:+ Text.trimEnd isLineEnd line ∧ content ≠ Text.trimEnd isLineEnd line := by
  obtain ⟨start, hstart, hlength⟩ := exists_append_of_split h
  refine ⟨⟨start, hstart.symm⟩, fun heq => ?_⟩
  have hempty : start = [] := List.append_left_eq_self.mp (heq.trans hstart).symm
  rw [hempty] at hlength
  exact absurd hlength (by decide)

theorem content_ne_nil_of_forwarding (h : split options line = .ok (header, '\x7d', content)) :
    content ≠ [] := by
  rintro rfl
  obtain ⟨_, _, _, _, _, _, _, hcheck⟩ := split_eq_ok_iff.mp h
  cases hcheck

theorem levels_le_of_decodeWithin {packet : Packet Quantity}
    (h : decodeWithin options now levels line = .ok packet) : packet.levels ≤ levels := by
  induction levels, line using levels_induction options generalizing packet with
  | rejected hsplit =>
    rw [decodeWithin_of_split_error hsplit] at h
    cases h
  | report hsplit htype =>
    rw [decodeWithin_of_report hsplit htype] at h
    obtain ⟨report, _, rfl⟩ := map_eq_ok_iff.mp h
    exact Nat.zero_le _
  | tooDeep hsplit =>
    rw [decodeWithin_zero_of_forwarding hsplit] at h
    cases h
  | forwarding hsplit ih =>
    rw [decodeWithin_succ_of_forwarding hsplit] at h
    obtain ⟨inner, hinner, rfl⟩ := map_eq_ok_iff.mp h
    exact Nat.succ_le_succ (ih hinner)

/-- The packet of a line keeps the line, is no deeper than the line is long, and keeps inner lines
that are ends of outer ones. -/
theorem nested_of_decodeWithin {packet : Packet Quantity}
    (h : decodeWithin options now levels line = .ok packet) :
    packet.record.raw = line ∧ 5 * (packet.levels + 1) ≤ line.byteLength ∧ packet.Nested := by
  refine decodeWithin_induction
    (motive := fun line packet => packet.record.raw = line ∧
      5 * (packet.levels + 1) ≤ line.byteLength ∧ packet.Nested) ?_ ?_ h
  · intro line header type content report hsplit _ _
    have hlength := byteLength_of_split hsplit
    exact ⟨(Record.header_withReport report).1, by rw [Packet.levels]; omega, trivial⟩
  · rintro line header content inner hsplit ⟨rfl, hbound, hnested⟩
    have hlength := byteLength_of_split hsplit
    obtain ⟨hsuffix, hne⟩ := properSuffix_of_split hsplit
    exact ⟨rfl, by rw [Packet.levels]; omega, hsuffix, hne, hnested⟩

/-- With a deeper limit the answer is the same, unless the limit was the answer. -/
theorem decodeWithin_of_le {levels' : Nat} (hle : levels ≤ levels') :
    decodeWithin options now levels line = .error (.thirdPartyTooDeep options.maxThirdPartyDepth) ∨
      decodeWithin options now levels' line = decodeWithin options now levels line := by
  induction levels, line using levels_induction options generalizing levels' with
  | rejected hsplit =>
    right
    rw [decodeWithin_of_split_error hsplit, decodeWithin_of_split_error hsplit]
  | report hsplit htype =>
    right
    rw [decodeWithin_of_report hsplit htype, decodeWithin_of_report hsplit htype]
  | tooDeep hsplit => exact .inl (decodeWithin_zero_of_forwarding hsplit)
  | forwarding hsplit ih =>
    -- One level less is left on both sides, so the inner line is as far from both limits.
    obtain ⟨more, rfl⟩ := Nat.exists_eq_add_of_le' hle
    rw [← Nat.add_assoc, decodeWithin_succ_of_forwarding hsplit,
      decodeWithin_succ_of_forwarding hsplit]
    rcases ih (Nat.le_add_left _ more) with hdeep | heq
    · left
      rw [hdeep]
      rfl
    · right
      rw [heq]

/-- A line that is too deep has a full level for each one that is allowed, one more, and content in
it. -/
theorem byteLength_of_tooDeep {n : Nat}
    (h : decodeWithin options now levels line = .error (.thirdPartyTooDeep n)) :
    5 * (levels + 1) < line.byteLength := by
  induction levels, line using levels_induction options with
  | rejected hsplit =>
    rw [decodeWithin_of_split_error hsplit] at h
    cases h
    cases stage_of_split_error hsplit
  | @report _ _ header type content hsplit htype =>
    rw [decodeWithin_of_report hsplit htype] at h
    cases Report.stage_of_decode_error (map_eq_error_iff.mp h)
  | @tooDeep line header content hsplit =>
    have hlength := byteLength_of_split hsplit
    have hcontent := List.length_pos_iff.mpr (content_ne_nil_of_forwarding hsplit)
    have hbytes := Text.length_le_byteLength content
    omega
  | forwarding hsplit ih =>
    rw [decodeWithin_succ_of_forwarding hsplit] at h
    have hlength := byteLength_of_split hsplit
    have hinner := ih (map_eq_error_iff.mp h)
    omega

end Line

/-- Packets are no deeper than the options allow and than their text has room for. A larger depth in
the options only takes away rejections for the depth, of which there are none once the depth has
room for the text. -/
theorem decode_nesting (options : Options) (now : Int) (line : Text) :
    (∀ packet, decode options now line = .ok packet →
        packet.levels ≤ options.maxThirdPartyDepth ∧
          5 * (packet.levels + 1) ≤ line.byteLength ∧ packet.Nested) ∧
      (∀ depth, options.maxThirdPartyDepth ≤ depth →
        (∀ packet, decode options now line = .ok packet →
            decode { options with maxThirdPartyDepth := depth } now line = .ok packet) ∧
          ∀ failure, decode options now line = .error failure →
            (∀ n, failure.error ≠ .thirdPartyTooDeep n) →
            decode { options with maxThirdPartyDepth := depth } now line = .error failure) ∧
      (line.byteLength ≤ 5 * (options.maxThirdPartyDepth + 1) →
        ∀ failure n, decode options now line = .error failure →
          failure.error ≠ .thirdPartyTooDeep n) := by
  refine ⟨?_, ?_, ?_⟩
  · intro packet hpacket
    have hwithin := mapError_eq_ok_iff.mp hpacket
    exact ⟨Line.levels_le_of_decodeWithin hwithin, (Line.nested_of_decodeWithin hwithin).2⟩
  · intro depth hdepth
    -- The depth stands twice in the decoder: as the levels left, and in the error that it gives.
    have hmore : decode { options with maxThirdPartyDepth := depth } now line =
        ((Line.decodeWithin options now depth line).mapError
          (DecodeError.withDepth depth)).mapError fun error => ⟨line, error⟩ := by
      rw [← Line.decodeWithin_withDepth]
      rfl
    rw [hmore, decode]
    have hcases : _ ∨ Line.decodeWithin options now depth line = _ := Line.decodeWithin_of_le hdepth
    rcases hcases with hdeep | heq
    · rw [hdeep]
      refine ⟨?_, ?_⟩
      · intro packet hpacket
        cases hpacket
      · intro failure hfailure herror
        cases hfailure
        exact absurd rfl (herror _)
    · rw [heq]
      cases hresult : Line.decodeWithin options now options.maxThirdPartyDepth line with
      | ok packet => exact ⟨fun _ h => h, fun _ h => by cases h⟩
      | error e =>
        refine ⟨?_, ?_⟩
        · intro packet hpacket
          cases hpacket
        · intro failure hfailure herror
          cases hfailure
          have hstage : e.stage ≠ .nesting := by
            intro hnesting
            cases e <;> first | exact herror _ rfl | cases hnesting
          rw [Except.mapError, DecodeError.withDepth_eq_self hstage]
          rfl
  · intro hlength failure n hfailure herror
    obtain ⟨e, hwithin, rfl⟩ := mapError_eq_error_iff.mp hfailure
    rw [show e = .thirdPartyTooDeep n from herror] at hwithin
    have hdeep := Line.byteLength_of_tooDeep hwithin
    omega

/-- Ten bytes have room for one line in another and for no second one. -/
theorem decode_nesting_shortest :
    (∃ packet, decode { maxThirdPartyDepth := 1 } 0 "A>B:\x7dC>D:>".toList = .ok packet ∧
        packet.levels = 1 ∧ packet.Nested ∧
        5 * (packet.levels + 1) ≤ Text.byteLength "A>B:\x7dC>D:>".toList ∧
        decode { maxThirdPartyDepth := 9 } 0 "A>B:\x7dC>D:>".toList = .ok packet) ∧
      ∃ failure, decode { maxThirdPartyDepth := 1 } 0 "A>B:\x7dC>D:\x7d".toList = .error failure ∧
        Text.byteLength "A>B:\x7dC>D:\x7d".toList ≤ 5 * (1 + 1) ∧
        (∀ n, failure.error ≠ .thirdPartyTooDeep n) ∧
        decode { maxThirdPartyDepth := 9 } 0 "A>B:\x7dC>D:\x7d".toList = .error failure := by
  obtain ⟨packet, hpacket, hlevels⟩ := map_eq_ok_iff.mp
    (show (decode { maxThirdPartyDepth := 1 } 0 "A>B:\x7dC>D:>".toList).map Packet.levels =
      .ok 1 by cbv)
  have hempty : decode { maxThirdPartyDepth := 1 } 0 "A>B:\x7dC>D:\x7d".toList =
      .error ⟨"A>B:\x7dC>D:\x7d".toList, .emptyBody⟩ := by cbv
  have hroom : Text.byteLength "A>B:\x7dC>D:\x7d".toList ≤ 5 * (1 + 1) := by decide
  constructor
  · obtain ⟨hbounds, hmore, _⟩ :=
      decode_nesting { maxThirdPartyDepth := 1 } 0 "A>B:\x7dC>D:>".toList
    obtain ⟨_, hlength, hnested⟩ := hbounds packet hpacket
    exact ⟨packet, hpacket, hlevels, hnested, hlength, (hmore 9 (by decide)).1 packet hpacket⟩
  · obtain ⟨_, hmore, hdeep⟩ :=
      decode_nesting { maxThirdPartyDepth := 1 } 0 "A>B:\x7dC>D:\x7d".toList
    have herror := fun n => hdeep hroom _ n hempty
    exact ⟨_, hempty, hroom, herror, (hmore 9 (by decide)).2 _ hempty herror⟩

end Aprs
