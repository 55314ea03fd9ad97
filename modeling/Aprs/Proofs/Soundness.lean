import Aprs.Proofs.Filling
import Aprs.Proofs.Reading
import Aprs.Proofs.Uncompressed

/-!
What a decoded report guarantees. Its type allows more reports than bodies can say; those that come
out of a body are well-formed, which the readers are followed for one by one.
-/

namespace Aprs

open Reading

structure Position.WellFormed (p : Position) : Prop where
  ambiguity_le : ∀ blanks, p.fix.form = .uncompressed blanks → blanks ≤ 4
  /-- Only the symbol of a weather station is followed by weather. -/
  weather : ∀ found ∈ p.remark.weather?,
    p.fix.symbolCode = Remark.weatherSymbol ∧ found.isEmpty = false
  /-- Objects take no messages. -/
  messageCapable : p.messageCapable = true → p.object = none

structure MicE.WellFormed (m : MicE) : Prop where
  ambiguity_le : m.ambiguity ≤ 4
  channels : ∀ found ∈ m.channels, found.length = 2 ∨ found.length = 5

def Report.WellFormed : Report → Prop
  | position p => p.WellFormed
  | micE m => m.WellFormed
  | weather w => ∀ found ∈ w.weather, found.isEmpty = false
  | _ => True

theorem Weather.isEmpty_of_mem_split {t : Text} {found : Weather Quantity}
    (h : found ∈ (split t).1) : found.isEmpty = false := by
  unfold split at h
  dsimp only at h
  split at h
  · cases h
  · next hempty =>
    rw [Option.mem_some_iff] at h
    rw [← h]
    exact Bool.eq_false_iff.mpr hempty

namespace Uncompressed

variable {field body rest : Text} {fix : Fix}

theorem exists_of_read (h : read field = .ok fix) :
    ∃ latitude longitude : Decimal,
      blanks (Text.slice 2 5 field) = blanks (Text.slice 12 5 field) ∧
      Text.natOfDigits (Text.slice 0 2 field) ≤ 89 ∧
      Text.natOfDigits (Text.slice 9 3 field) ≤ 179 ∧
      Decimal.parse? (centre (Text.slice 2 5 field) (blanks (Text.slice 2 5 field))) =
        some latitude ∧
      Decimal.parse? (centre (Text.slice 12 5 field) (blanks (Text.slice 2 5 field))) =
        some longitude ∧
      fix =
        { form := .uncompressed (blanks (Text.slice 2 5 field))
          latitude := coordinate (Text.natOfDigits (Text.slice 0 2 field)) latitude
            ((field.getD 7 ' ').toUpper == 'S')
          longitude := coordinate (Text.natOfDigits (Text.slice 9 3 field)) longitude
            ((field.getD 17 ' ').toUpper == 'W')
          symbolTable := field.getD 8 ' '
          symbolCode := field.getD 18 ' ' } := by
  unfold read at h
  dsimp only at h
  split at h
  · cases h
  next hblanks =>
  split at h
  · cases h
  split at h
  · cases h
  split at h
  · cases h
  · cases h
  next latitude longitude hlatitude hlongitude =>
  cases h
  exact ⟨latitude, longitude, not_not.mp hblanks, by omega, by omega, hlatitude, hlongitude, rfl⟩

theorem decode?_eq_some_iff :
    decode? body = .ok (some (fix, rest)) ↔
      (shape.take? body).isSome = true ∧
        ∃ field, layout.take? body = some (field, rest) ∧ read field = .ok fix := by
  rw [decode?, ← Option.not_isNone, Bool.not_eq_true']
  by_cases hshape : (shape.take? body).isNone = true
  · rw [if_pos hshape, hshape]
    simp
  · rw [if_neg hshape]
    rw [Bool.not_eq_true] at hshape
    refine Iff.trans ?_ (and_iff_right hshape).symm
    constructor
    · intro h
      split at h
      · cases h
      · next field after hlayout =>
        obtain ⟨found, hread, heq⟩ := map_eq_ok_iff.mp h
        cases heq
        exact ⟨field, hlayout, hread⟩
    · rintro ⟨field, hlayout, hread⟩
      rw [hlayout]
      exact map_eq_ok_iff.mpr ⟨fix, hread, rfl⟩

theorem ambiguity_le_of_decode? (h : decode? body = .ok (some (fix, rest))) {n : Nat}
    (hform : fix.form = .uncompressed n) : n ≤ 4 := by
  obtain ⟨_, field, hlayout, hread⟩ := decode?_eq_some_iff.mp h
  obtain ⟨_, _, _, _, _, _, _, rfl⟩ := exists_of_read hread
  cases hform
  exact blanks_le (Layout.take?_eq_some_iff.mp hlayout).2

/-- What follows a position makes no difference to it. -/
theorem decode?_append (h : decode? body = .ok (some (fix, rest))) (u : Text) :
    decode? (body ++ u) = .ok (some (fix, rest ++ u)) := by
  obtain ⟨hshape, field, hlayout, hread⟩ := decode?_eq_some_iff.mp h
  refine decode?_eq_some_iff.mpr ⟨?_, field, Layout.take?_append_of_eq_some hlayout u, hread⟩
  obtain ⟨⟨found, after⟩, hfound⟩ := Option.isSome_iff_exists.mp hshape
  rw [Layout.take?_append_of_eq_some hfound u]
  rfl

end Uncompressed

theorem Compressed.form_of_decode {body rest : Text} {fix : Fix}
    (h : decode body = .ok (fix, rest)) : ∃ current, fix.form = .compressed current := by
  unfold decode at h
  split at h
  · cases h
  · obtain ⟨north, _, h⟩ := bind_eq_ok_iff.mp h
    obtain ⟨east, _, h⟩ := bind_eq_ok_iff.mp h
    cases pure_eq_ok_iff.mp h
    exact ⟨_, rfl⟩

namespace Position

variable {now : Int} {kind : PositionKind} {body rest : Text}

theorem ambiguity_le_of_takeFix {fix : Fix} (h : takeFix body = .ok (fix, rest)) {n : Nat}
    (hform : fix.form = .uncompressed n) : n ≤ 4 := by
  unfold takeFix at h
  split at h
  · cases h
  · next hdecode =>
    cases h
    exact Uncompressed.ambiguity_le_of_decode? hdecode hform
  · obtain ⟨current, hcompressed⟩ := Compressed.form_of_decode h
    rw [hform] at hcompressed
    cases hcompressed

theorem weather_of_read {symbolCode : Char} {t : Text} {found : Weather Quantity}
    (h : found ∈ (Remark.read symbolCode t).weather?) :
    symbolCode = Remark.weatherSymbol ∧ found.isEmpty = false := by
  unfold Remark.read at h
  split at h
  · next hsymbol => exact ⟨hsymbol, Weather.isEmpty_of_mem_split h⟩
  · cases h

theorem messageCapable_of_takeObject {object : Option ObjectHeader}
    (h : takeObject kind body = .ok (object, rest)) (hcapable : kind.messageCapable = true) :
    object = none := by
  cases kind with
  | station =>
    cases h
    rfl
  | object => cases hcapable

theorem wellFormed_of_decode {p : Position} (h : decode now kind body = .ok p) : p.WellFormed := by
  unfold decode at h
  obtain ⟨⟨object, body⟩, hobject, h⟩ := bind_eq_ok_iff.mp h
  obtain ⟨⟨timestamp, body⟩, _, h⟩ := bind_eq_ok_iff.mp h
  dsimp only at h
  split at h
  · cases h
  · obtain ⟨⟨fix, body⟩, hfix, h⟩ := bind_eq_ok_iff.mp h
    cases pure_eq_ok_iff.mp h
    exact {
      ambiguity_le := fun _ hform => ambiguity_le_of_takeFix hfix hform
      weather := fun _ hfound => weather_of_read hfound
      messageCapable := messageCapable_of_takeObject hobject }

end Position

namespace MicE

variable {destination body : Text}

theorem ambiguity_le_of_decodeLatitude {latitude : Quantity} {ambiguity : Nat}
    (h : decodeLatitude destination = .ok (latitude, ambiguity)) : ambiguity ≤ 4 := by
  unfold decodeLatitude at h
  dsimp only at h
  split at h
  · cases h
  · next blanks _ =>
    by_cases hblanks : 4 < blanks
    · rw [if_pos hblanks] at h
      cases h
    · rw [if_neg hblanks] at h
      split at h
      · cases h
        omega
      · cases h

/-- Each byte takes two digits. -/
theorem length_of_hexBytes? {t : Text} {bytes : List UInt8} (h : hexBytes? t = some bytes) :
    t.length = 2 * bytes.length := by
  induction t using hexBytes?.induct generalizing bytes with
  | case1 =>
    cases h
    rfl
  | case2 => cases h
  | case3 a b t ih =>
    rw [hexBytes?] at h
    obtain ⟨high, _, h⟩ := Option.bind_eq_some_iff.mp h
    obtain ⟨low, _, h⟩ := Option.bind_eq_some_iff.mp h
    obtain ⟨rest, hrest, h⟩ := Option.bind_eq_some_iff.mp h
    cases h
    have hlength := ih hrest
    simp only [List.length_cons]
    omega

theorem channels_of_splitChannels {t rest : Text} {channels : List UInt8}
    (h : splitChannels t = .ok (some channels, rest)) :
    channels.length = 2 ∨ channels.length = 5 := by
  unfold splitChannels at h
  split at h
  · cases h
  · next field after hfind =>
    split at h
    · next bytes hbytes =>
      cases h
      obtain ⟨layout, hlayout, htake⟩ := List.exists_of_findSome?_eq_some hfind
      have hfield := Layout.length_eq_of_fills (Layout.take?_eq_some_iff.mp htake).2
      have hdigits := length_of_hexBytes? hbytes
      rw [List.length_drop, hfield] at hdigits
      rw [channelLayouts, List.mem_cons, List.mem_singleton] at hlayout
      rcases hlayout with rfl | rfl
      · change 11 - 1 = 2 * channels.length at hdigits
        omega
      · change 5 - 1 = 2 * channels.length at hdigits
        omega
    · cases h

theorem wellFormed_of_decode {m : MicE} (h : decode destination body = .ok m) :
    m.WellFormed := by
  unfold decode at h
  obtain ⟨_, _, h⟩ := bind_eq_ok_iff.mp h
  obtain ⟨⟨latitude, ambiguity⟩, hlatitude, h⟩ := bind_eq_ok_iff.mp h
  obtain ⟨⟨channels, rest⟩, hchannels, h⟩ := bind_eq_ok_iff.mp h
  obtain ⟨⟨altitude, rest⟩, _, h⟩ := bind_eq_ok_iff.mp h
  cases pure_eq_ok_iff.mp h
  refine ⟨ambiguity_le_of_decodeLatitude (mapError_eq_ok_iff.mp hlatitude), ?_⟩
  intro found hfound
  have hsplit := mapError_eq_ok_iff.mp hchannels
  rw [show channels = some found from hfound] at hsplit
  exact channels_of_splitChannels hsplit

end MicE

theorem WeatherReport.isEmpty_of_decode? {now : Int} {body : Text} {w : WeatherReport}
    (h : decode? now body = some w) : ∀ found ∈ w.weather, found.isEmpty = false := by
  obtain ⟨⟨field, rest⟩, _, rfl⟩ := Option.map_eq_some_iff.mp h
  exact fun found hfound => Weather.isEmpty_of_mem_split hfound

namespace Report

variable {now : Int} {destination body : Text} {type : Char} {report : Report}

/-- What holds of all that the readers of the kinds of bodies give holds of every report. -/
theorem decode_induction {motive : Report → Prop}
    (position : ∀ {kind rest p}, rest <:+ body → Position.decode now kind rest = .ok p →
      motive (.position p))
    (micE : ∀ {m}, MicE.decode destination body = .ok m → motive (.micE m))
    (weather : ∀ {w}, WeatherReport.decode? now body = some w → motive (.weather w))
    (message : ∀ {m}, Message.decode body = .ok m → motive (.message m))
    (status : ∀ timestamp text, motive (.status timestamp text))
    (userDefined : ∀ id type rest, motive (.userDefined id type rest))
    (undecoded : motive (.undecoded body))
    (h : decode now destination type body = .ok report) : motive report := by
  unfold decode at h
  split at h
  · obtain ⟨p, hposition, rfl⟩ := map_eq_ok_iff.mp h
    exact position (List.suffix_refl body) hposition
  split at h
  · obtain ⟨m, hmicE, rfl⟩ := map_eq_ok_iff.mp h
    exact micE hmicE
  split at h
  · cases h
    exact undecoded
  · cases h
    unfold readUserDefined
    split <;> exact userDefined _ _ _
  · unfold status? at h
    split at h
    · split at h
      · cases h
        exact status _ _
      · cases h
    · cases h
      exact status _ _
  · obtain ⟨m, hmessage, rfl⟩ := map_eq_ok_iff.mp h
    exact message (mapError_eq_ok_iff.mp hmessage)
  · split at h
    · next w hweather =>
      cases h
      exact weather hweather
    · cases h
  · unfold decodeUnknown at h
    split at h
    · next before after hsplit =>
      split at h
      · obtain ⟨p, hposition, rfl⟩ := map_eq_ok_iff.mp h
        have hsuffix : after <:+ body := by
          rw [(Text.splitFirst?_eq_some_iff.mp hsplit).1]
          exact (List.suffix_cons '!' after).trans (List.suffix_append before _)
        exact position hsuffix hposition
      · cases h
        exact undecoded
    · cases h
      exact undecoded

theorem wellFormed_of_decode (h : decode now destination type body = .ok report) :
    report.WellFormed := by
  refine decode_induction (motive := WellFormed) ?position ?micE ?weather ?message ?status
    ?userDefined ?undecoded h
  case position => exact fun _ hposition => Position.wellFormed_of_decode hposition
  case micE => exact fun hmicE => MicE.wellFormed_of_decode hmicE
  case weather => exact fun hweather => WeatherReport.isEmpty_of_decode? hweather
  all_goals intros; trivial

end Report

end Aprs
