import Aprs.Proofs.ByteOffsets
import Aprs.Proofs.PositionValues
import Aprs.Proofs.Rejection
import Aprs.Proofs.StepwiseFilling

/-!
How stations write positions in thirteen characters, and that reading is the inverse of it. The last
three characters may be any, and whatever they are, no two of the things that they could stand for
are read from them at once. A text is refused for not beginning with such a block, or for one
character of its coordinates.
-/

namespace Aprs.Compressed

open Quantity

abbrev AsciiChar := {c : Char // isAscii c = true}

/-- What a block is written from. Latitudes are counted southwards from the north pole, longitudes
eastwards from the other side of Greenwich. -/
structure Sent where
  symbolTable : AsciiChar
  latitude : Fin (Base91.radix ^ 4)
  longitude : Fin (Base91.radix ^ 4)
  symbolCode : AsciiChar
  course : AsciiChar
  speed : AsciiChar
  kind : AsciiChar
  deriving DecidableEq

namespace Sent

variable (sent : Sent)

def text : Text :=
  [sent.symbolTable.val] ++ Base91.encode sent.latitude 4 ++ Base91.encode sent.longitude 4 ++
    [sent.symbolCode.val, sent.course.val, sent.speed.val, sent.kind.val]

end Sent

section Readings

/-- What the last three characters of a block can tell: nothing, or one thing and no other. A
course is never told without a speed. -/
inductive Tells : Readings → Prop
  | nothing : Tells {}
  | altitude (metres : Quantity) : Tells { altitude := some metres }
  | motion {course : Quantity} {n : Nat} (hcourse : course.toRat? = some (4 * (n : Rat)))
      (hpos : 1 ≤ n) (hle : n ≤ 90) (speed : Quantity) :
      Tells { course := some course, speed := some speed }
  | range (kilometres : Quantity) : Tells { range := some kilometres }

/-- North is told as the last of the courses, not as the first. -/
theorem tells_course {c : Int} (hnonneg : 0 ≤ c) (hle : c ≤ 89) (speed : Quantity) :
    Tells { course := some (if c = 0 then 360 else .ofInt (c * 4)), speed := some speed } := by
  obtain ⟨n, rfl⟩ := Int.eq_ofNat_of_zero_le hnonneg
  by_cases hzero : n = 0
  · subst hzero
    refine .motion (n := 90) ?_ (by decide) le_rfl speed
    rw [if_pos Nat.cast_zero]
    refine (toRat?_ofNat 360).trans (congrArg some ?_)
    norm_num
  · refine .motion (n := n) ?_ (by omega) (by omega) speed
    have hquadruple : (n : Int) * 4 = ((4 * n : Nat) : Int) := by omega
    rw [if_neg (by omega), hquadruple, toRat?_ofInt]
    push_cast
    rfl

theorem tells_readings (c s kind : Int) : Tells (readings c s kind) := by
  unfold readings
  split_ifs with hsilent haltitude hcourse hzero hrange
  · exact .nothing
  · exact .altitude _
  · have hmotion := tells_course hcourse.1 hcourse.2 (.ofKnots (.power (.scaled 108 2) s - 1))
    rwa [if_pos hzero] at hmotion
  · have hmotion := tells_course hcourse.1 hcourse.2 (.ofKnots (.power (.scaled 108 2) s - 1))
    rwa [if_neg hzero] at hmotion
  · exact .range _
  · exact .nothing

theorem offset_eq_iff {c : Char} : offset c = -1 ↔ c = ' ' := by
  have hblank : c = ' ' ↔ c.toNat = 32 := Char.toNat_inj.symm
  rw [hblank, offset]
  omega

end Readings

namespace Sent

variable (sent : Sent)

/-- What a block has to say after it has been read as it was sent. -/
structure IsReadAs (fix : Fix) : Prop where
  form : ∃ current : Option Bool, fix.form = .compressed current ∧
    (current.isSome = true ↔ sent.course.val = ' ')
  latitude : fix.latitude.toRat? = some (90 - (sent.latitude.val : Rat) / 380926)
  longitude : fix.longitude.toRat? = some (-180 + (sent.longitude.val : Rat) / 190463)
  symbolTable : fix.symbolTable = sent.symbolTable
  symbolCode : fix.symbolCode = sent.symbolCode
  readings : Tells fix.readings
  silent : sent.course.val = ' ' ∨ sent.speed.val = ' ' → fix.readings = {}

/-- The parts of a block are where they are looked for. -/
theorem slices_text :
    sent.text.length = 13 ∧
      Text.slice 1 4 sent.text = Base91.encode sent.latitude 4 ∧
      Text.slice 5 4 sent.text = Base91.encode sent.longitude 4 ∧
      sent.text.getD 0 ' ' = sent.symbolTable ∧
      sent.text.getD 9 ' ' = sent.symbolCode ∧
      sent.text.getD 10 ' ' = sent.course ∧
      sent.text.getD 11 ' ' = sent.speed ∧
      sent.text.getD 12 ' ' = sent.kind := by
  have hlength : ∀ n : Fin (Base91.radix ^ 4), (Base91.encode n 4).length = 4 :=
    fun n => Base91.length_encode (by decide) n.isLt
  obtain ⟨a₁, a₂, a₃, a₄, hlatitude⟩ := List.length_eq_four.mp (hlength sent.latitude)
  obtain ⟨b₁, b₂, b₃, b₄, hlongitude⟩ := List.length_eq_four.mp (hlength sent.longitude)
  rw [text, hlatitude, hlongitude]
  exact ⟨rfl, rfl, rfl, rfl, rfl, rfl, rfl, rfl⟩

theorem isAscii_of_isDigit {c : Char} (h : Base91.isDigit c = true) : isAscii c = true := by
  have hhigh : c.toNat ≤ 123 := (Text.between_iff.mp h).2
  rw [isAscii, decide_eq_true_eq]
  omega

theorem fills_text : Layout.Fills layout sent.text := by
  have hnumber : ∀ n : Nat, ∀ c ∈ Base91.encode n 4, isAscii c = true :=
    fun n c hc => isAscii_of_isDigit (Base91.isDigit_of_mem_encode hc)
  refine Layout.fills_columns_iff.mpr ⟨sent.slices_text.1, ?_⟩
  simp only [text, List.forall_mem_append, List.forall_mem_cons]
  exact ⟨⟨⟨⟨sent.symbolTable.property, List.forall_mem_nil _⟩, hnumber _⟩, hnumber _⟩,
    sent.symbolCode.property, sent.course.property, sent.speed.property, sent.kind.property,
    List.forall_mem_nil _⟩

theorem number_encode (n : Fin (Base91.radix ^ 4)) :
    number (Base91.encode n 4) = .ok (n : Nat) := by
  have hlimit : (n : Nat) ≤ Base91.limit := n.isLt.le.trans (by decide)
  rw [number, Base91.decode_encode hlimit]
  rfl

theorem decode_text (rest : Text) :
    ∃ fix, decode (sent.text ++ rest) = .ok (fix, rest) ∧ sent.IsReadAs fix := by
  obtain ⟨-, hlatitude, hlongitude, htable, hcode, hcourse, hspeed, hkind⟩ := sent.slices_text
  rw [decode, Layout.take?_append sent.fills_text]
  dsimp only
  rw [hlatitude, hlongitude, number_encode, number_encode, htable, hcode, hcourse, hspeed, hkind]
  refine ⟨_, rfl, ⟨_, rfl, ?_⟩, toRat?_latitude _, toRat?_longitude _, rfl, rfl,
    tells_readings _ _ _, fun hsilent => ?_⟩
  · rw [fixStatus, ← offset_eq_iff]
    split <;> simp [*]
  · rw [← offset_eq_iff, ← offset_eq_iff] at hsilent
    exact if_pos hsilent

/-- A car that goes east, and the rest of its report. -/
example :
    (decode "/5L!!<*e7>7P[ Test".toList).map (fun (fix, rest) => (fix.readings.course, rest)) =
      .ok (some (.ofInt 88), " Test".toList) := by
  decide

end Sent

/-- Thirteen characters of one byte each. -/
def BeginsWithBlock (body : Text) : Prop :=
  ∃ block, block <+: body ∧ block.length = 13 ∧ Text.IsAscii block

section Errors

variable {body : Text} {e : DecodeError}

theorem beginsWithBlock_iff :
    BeginsWithBlock body ↔ ∃ block rest, layout.take? body = some (block, rest) := by
  have hfills : ∀ block, Layout.Fills layout block ↔ block.length = 13 ∧ Text.IsAscii block := by
    intro block
    rw [layout, Layout.fills_columns_iff]
    simp only [isAscii, decide_eq_true_eq]
    exact Iff.rfl
  constructor
  · rintro ⟨block, ⟨rest, rfl⟩, hblock⟩
    exact ⟨block, rest, Layout.take?_append ((hfills block).mpr hblock) rest⟩
  · rintro ⟨block, rest, htake⟩
    obtain ⟨rfl, hblock⟩ := Layout.take?_eq_some_iff.mp htake
    exact ⟨block, List.prefix_append block rest, (hfills block).mp hblock⟩

/-- The coordinates of a block are found without cutting it off. -/
theorem slice_of_take? {block rest : Text} (h : layout.take? body = some (block, rest)) :
    Text.slice 1 8 block = Text.slice 1 8 body := by
  obtain ⟨rfl, hfills⟩ := Layout.take?_eq_some_iff.mp h
  have hlength : block.length = 13 := Layout.length_eq_of_fills hfills
  rw [Text.slice, Text.slice, List.drop_append_of_le_length (by omega),
    List.take_append_of_le_length (by rw [List.length_drop, hlength]; decide)]

theorem decode_error_iff :
    decode body = .error e ↔
      ¬BeginsWithBlock body ∧ e = .invalidCompressed ∨
        BeginsWithBlock body ∧
          ∃ c, Base91.badDigit? (Text.slice 1 8 body) = some c ∧ e = .invalidBase91 c := by
  rw [decode_eq_error_iff, beginsWithBlock_iff]
  cases htake : layout.take? body with
  | none => simp
  | some parts =>
    obtain ⟨block, rest⟩ := parts
    rw [← slice_of_take? htake]
    simp

theorem run_fill_error_iff {r r' : Record Quantity} :
    (fill body).run r = .error e r' ↔ decode body = .error e ∧ r' = r := by
  rw [run_fill]
  cases decode body with
  | error d => simp [eq_comm]
  | ok found => simp

end Errors

/-- A block that was written from numbers and characters gives them back, whatever follows it; and
a text is refused just where there is no block, or where a coordinate has a character that is no
digit, which leaves all of the record as it was. -/
theorem decode_block :
    (∀ (sent : Sent) (rest : Text), ∃ fix,
      decode (sent.text ++ rest) = .ok (fix, rest) ∧ sent.IsReadAs fix ∧
        ∀ r, (fill (sent.text ++ rest)).run r = .ok rest (r.told fix)) ∧
      ∀ (body : Text) (e : DecodeError),
        (decode body = .error e ↔
          ¬BeginsWithBlock body ∧ e = .invalidCompressed ∨
            BeginsWithBlock body ∧
              ∃ c, Base91.badDigit? (Text.slice 1 8 body) = some c ∧ e = .invalidBase91 c) ∧
        ∀ r r', (fill body).run r = .error e r' ↔ decode body = .error e ∧ r' = r := by
  refine ⟨fun sent rest => ?_, fun body e => ⟨decode_error_iff, fun r r' => run_fill_error_iff⟩⟩
  obtain ⟨fix, hdecode, hread⟩ := sent.decode_text rest
  refine ⟨fix, hdecode, hread, fun r => ?_⟩
  rw [run_fill, hdecode]

end Aprs.Compressed
