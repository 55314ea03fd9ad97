import Aprs.Json.Number
import Aprs.Packet.Document
import Aprs.Proofs.JsonText

/-!
Packets survive their documents. Every kind of member is written in a way that its reader undoes and
that is not null, so an absent member is told from one that is there; packets follow member by
member, and by induction on the packets that they forward.
-/

namespace Aprs

namespace Json

/-- The document of a value is read as another one, which may be the same, and is not that of an
absent value. -/
structure Restores (write : α → Json) (read : Json → Option β) (a : α) (b : β) : Prop where
  ne_null : write a ≠ null
  read_write : read (write a) = some b

section Scalars

theorem restores_text (t : Text) : Restores ofText toText? t t := ⟨nofun, rfl⟩

theorem restores_bool (b : Bool) : Restores bool toBool? b b := ⟨nofun, rfl⟩

theorem restores_char (c : Char) : Restores ofChar toChar? c c := ⟨nofun, rfl⟩

theorem toInt?_ofInt (i : Int) : toInt? (ofInt i) = some i := by
  rw [ofInt, toInt?, JsonNumber.toInt?, if_neg (by simp)]
  by_cases hi : i < 0
  · have habs : (i.natAbs : Int) = -i := by omega
    rw [if_pos (by simpa using hi), if_neg (by simp; omega), habs, Int.neg_neg]
  · have habs : (i.natAbs : Int) = i := by omega
    rw [if_neg (by simpa using hi), habs]

theorem toNat?_ofNat {n bound : Nat} (h : n < bound) : toNat? bound (ofNat n) = some n := by
  rw [toNat?, ofNat, toInt?_ofInt, Option.bind_some, if_pos (by omega), Int.toNat_natCast]

theorem restores_uint8 (n : UInt8) : Restores (fun n => ofNat n.toNat) toUInt8? n n where
  ne_null := nofun
  read_write := by
    rw [toUInt8?, toNat?_ofNat n.toNat_lt, Option.map_some]
    simp

theorem restores_uint16 (n : UInt16) : Restores (fun n => ofNat n.toNat) toUInt16? n n where
  ne_null := nofun
  read_write := by
    rw [toUInt16?, toNat?_ofNat n.toNat_lt, Option.map_some]
    simp

theorem restores_uint32 (n : UInt32) : Restores (fun n => ofNat n.toNat) toUInt32? n n where
  ne_null := nofun
  read_write := by
    rw [toUInt32?, toNat?_ofNat n.toNat_lt, Option.map_some]
    simp

theorem toInt64?_ofInt (i : Int64) : toInt64? (ofInt i.toInt) = some i := by
  rw [toInt64?, toInt?_ofInt, Option.bind_some, if_pos ⟨i.minValue_le_toInt, i.toInt_le⟩,
    Int64.ofInt_toInt]

end Scalars

section Lists

variable {write : α → Json} {read : Nat → Json → Option β} {f : α → β} {budget : Nat}

theorem mapM_map {g : α → γ} {h : γ → Option β} {as : List α}
    (hread : ∀ a ∈ as, h (g a) = some (f a)) :
    (as.map g).mapM h = some (as.map f) := by
  induction as with
  | nil => rfl
  | cons a as ih =>
    rw [List.forall_mem_cons] at hread
    simp [hread.1, ih hread.2]

theorem mapM_map_eq_none {g : α → γ} {h : γ → Option β} {as : List α} {a : α} (ha : a ∈ as)
    (hread : h (g a) = none) : (as.map g).mapM h = none := by
  induction as with
  | nil => cases ha
  | cons b as ih =>
    rcases List.mem_cons.mp ha with rfl | ha
    · simp [hread]
    · simp [ih ha]

theorem restores_list {as : List α} (h : ∀ a ∈ as, read budget (write a) = some (f a)) :
    Restores (fun as => array (as.map write)) (toList? read (budget + 1)) as (as.map f) :=
  ⟨nofun, mapM_map h⟩

theorem restores_vector {as : Vector α n}
    (h : ∀ a ∈ as.toList, read budget (write a) = some (f a)) :
    Restores (fun as : Vector α n => array (as.toList.map write)) (toVector? n read (budget + 1))
      as (as.map f) where
  ne_null := nofun
  read_write := by
    rw [toVector?, (restores_list h).read_write, Option.bind_some, dif_pos (by simp)]
    congr 1
    apply Vector.toList_inj.mp
    rw [Vector.toList_map]
    rfl

theorem toVector?_eq_none {as : Vector α n} {a : α} (ha : a ∈ as.toList)
    (h : ∀ budget, read budget (write a) = none) (budget : Nat) :
    toVector? n read budget (array (as.toList.map write)) = none := by
  cases budget with
  | zero => rfl
  | succ budget =>
    have hlist : toList? read (budget + 1) (array (as.toList.map write)) = none :=
      mapM_map_eq_none ha (h budget)
    rw [toVector?, hlist, Option.bind_none]

theorem restores_texts (ts : List Text) : Restores ofTexts (toTexts? (budget + 1)) ts ts := by
  have hlist : Restores ofTexts (toTexts? (budget + 1)) ts (ts.map id) :=
    restores_list fun t _ => (restores_text t).read_write
  rwa [List.map_id] at hlist

theorem restores_constant {all : List α} {tag : α → String} {a : α}
    (h : all.find? (fun b => (tag b).toList == (tag a).toList) = some a) (budget : Nat) :
    Restores (fun a => ofString (tag a)) (toConstant? all tag budget) a a :=
  ⟨nofun, h⟩

end Lists

section Fields

variable {names : List Text} {values : List Json} {name : String} {json : Json}

theorem nodup_map_toList {tags : List String} (h : tags.Nodup) : (tags.map String.toList).Nodup :=
  h.map fun _ _ heq => String.toList_injective heq

theorem fields?_ofValues (hnames : names.Nodup) (hlength : values.length = names.length) :
    (ofValues names values).fields? names = some (names.zip values) := by
  have hfst : (names.zip values).map Prod.fst = names :=
    List.map_fst_zip (le_of_eq hlength.symm)
  have hfilter : names.filter names.contains = names := by
    rw [List.filter_eq_self]
    exact fun n hn => List.contains_iff_mem.mpr hn
  rw [ofValues, fields?, hfst, hfilter, if_pos hnames]

/-- The value of a name is the one at its place. -/
theorem lookup_zip (hnames : names.Nodup) (i : Nat) (hname : names[i]? = some name.toList)
    (hvalue : values[i]? = some json) : (names.zip values).lookup name.toList = some json := by
  induction names generalizing values i with
  | nil => cases hname
  | cons n names ih =>
    cases values with
    | nil => cases hvalue
    | cons value values =>
      rw [List.zip_cons_cons, List.lookup_cons]
      cases i with
      | zero =>
        obtain rfl : n = name.toList := Option.some.inj hname
        rw [beq_self_eq_true]
        exact hvalue
      | succ i =>
        rw [List.nodup_cons] at hnames
        have hmem : name.toList ∈ names := List.mem_of_getElem? hname
        have hne : (name.toList == n) = false := by
          rw [beq_eq_false_iff_ne]
          rintro rfl
          exact hnames.1 hmem
        rw [hne]
        exact ih hnames.2 i hname hvalue

variable {write : α → Json} {read : Json → Option β}

theorem required_bind (hnames : names.Nodup) (i : Nat) (hname : names[i]? = some name.toList)
    (hvalue : values[i]? = some json) {b : β} (hread : read json = some b) {g : β → Option γ}
    {y : Option γ} (hrest : g b = y) :
    (Fields.required (names.zip values) name read >>= g) = y := by
  rw [Fields.required, lookup_zip hnames i hname hvalue, Option.bind_some, hread]
  exact hrest

theorem optional_map_bind (hnames : names.Nodup) (i : Nat) (hname : names[i]? = some name.toList)
    {o : Option α} (hvalue : values[i]? = some (ofOption write o)) {f : α → β}
    (h : ∀ a ∈ o, Restores write read a (f a)) {g : Option β → Option γ} {y : Option γ}
    (hrest : g (o.map f) = y) : (Fields.optional (names.zip values) name read >>= g) = y := by
  have hread : Fields.optional (names.zip values) name read = some (o.map f) := by
    rw [Fields.optional, lookup_zip hnames i hname hvalue]
    cases o with
    | none => rfl
    | some a =>
      obtain ⟨hnull, hread⟩ := h a rfl
      rw [ofOption, Option.elim_some]
      split
      · next heq => cases heq
      · next heq => exact absurd (Option.some.inj heq) hnull
      · next heq =>
        obtain rfl := Option.some.inj heq
        rw [hread, Option.map_some]
        rfl
  rw [hread]
  exact hrest

theorem optional_bind {write : β → Json} (hnames : names.Nodup) (i : Nat)
    (hname : names[i]? = some name.toList) {o : Option β}
    (hvalue : values[i]? = some (ofOption write o)) (h : ∀ b ∈ o, Restores write read b b)
    {g : Option β → Option γ} {y : Option γ} (hrest : g o = y) :
    (Fields.optional (names.zip values) name read >>= g) = y :=
  optional_map_bind (f := id) hnames i hname hvalue h (by rwa [Option.map_id])

/-- A field that is there has to be read. -/
theorem optional_eq_none (hnames : names.Nodup) (i : Nat) (hname : names[i]? = some name.toList)
    (hvalue : values[i]? = some json) (hnull : json ≠ null) (hread : read json = none) :
    Fields.optional (names.zip values) name read = none := by
  rw [Fields.optional, lookup_zip hnames i hname hvalue]
  split
  · next heq => cases heq
  · next heq => exact absurd (Option.some.inj heq) hnull
  · next heq =>
    obtain rfl := Option.some.inj heq
    rw [hread, Option.map_none]

end Fields

end Json

open Json

theorem Format.restores (f : Format) (budget : Nat) :
    Restores Format.toJson (Format.ofJson? budget) f f :=
  restores_constant (by cases f <;> decide) budget

theorem Response.restores (r : Response) (budget : Nat) :
    Restores Response.toJson (Response.ofJson? budget) r r :=
  restores_constant (by cases r <;> decide) budget

theorem Directivity.restores (d : Directivity) (budget : Nat) :
    Restores Directivity.toJson (Directivity.ofJson? (budget + 1)) d d where
  ne_null := by cases d <;> exact nofun
  read_write := by
    cases d with
    | omni | invalid => rfl
    | degrees bearing =>
      have hread := (restores_uint16 bearing).read_write
      rw [toJson, ofJson?, nested, if_pos rfl, hread, Option.map_some]
      exact nofun

section Parts

variable {M N : Type} {write : M → Json} {read : Json → Option N} {f : M → N} {budget : Nat}

namespace Phg

def numbers {N : Type} (p : Phg N) : List N := [p.power, p.height, p.gain, p.range]

theorem restores {p : Phg M} (h : ∀ x ∈ p.numbers, Restores write read x (f x)) :
    Restores (toJson write) (ofJson? read (budget + 2)) p (p.map f) where
  ne_null := nofun
  read_write := by
    have hnames : names.Nodup := nodup_map_toList (by simp)
    simp only [numbers, List.forall_mem_cons] at h
    obtain ⟨hpower, hheight, hgain, hrange, -⟩ := h
    rw [toJson, ofJson?, nested, fields?_ofValues hnames rfl, Option.bind_eq_bind,
      Option.bind_some]
    refine required_bind hnames 0 rfl rfl (restores_text p.raw).read_write ?_
    refine required_bind hnames 1 rfl rfl hpower.read_write ?_
    refine required_bind hnames 2 rfl rfl hheight.read_write ?_
    refine required_bind hnames 3 rfl rfl hgain.read_write ?_
    refine required_bind hnames 4 rfl rfl (p.directivity.restores budget).read_write ?_
    refine required_bind hnames 5 rfl rfl hrange.read_write ?_
    refine optional_bind hnames 6 rfl rfl (fun n _ => restores_uint8 n) ?_
    rfl

end Phg

theorem Telemetry.restores (t : Telemetry) :
    Restores toJson (ofJson? (budget + 2)) t t where
  ne_null := nofun
  read_write := by
    have hnames : names.Nodup := nodup_map_toList (by simp)
    have hvalues : Restores
        (fun vs : Vector UInt32 5 => array (vs.toList.map fun v => ofNat v.toNat))
        (toVector? 5 (fun _ => toUInt32?) (budget + 1)) t.values (t.values.map id) :=
      restores_vector fun v _ => (restores_uint32 v).read_write
    rw [Vector.map_id] at hvalues
    rw [toJson, ofJson?, nested, fields?_ofValues hnames rfl, Option.bind_eq_bind,
      Option.bind_some]
    refine required_bind hnames 0 rfl rfl (restores_uint32 t.seq).read_write ?_
    refine required_bind hnames 1 rfl rfl hvalues.read_write ?_
    refine optional_bind hnames 2 rfl rfl (fun b _ => restores_text b) ?_
    rfl

namespace TelemetryDefs

def numbers {N : Type} (d : TelemetryDefs N) : List N :=
  d.eqns.elim [] fun rows => rows.toList.flatMap Vector.toList

theorem restores {d : TelemetryDefs M} (h : ∀ x ∈ d.numbers, Restores write read x (f x)) :
    Restores (toJson write) (ofJson? read (budget + 3)) d (d.map f) where
  ne_null := nofun
  read_write := by
    have hnames : names.Nodup := nodup_map_toList (by simp)
    have heqns : ∀ rows ∈ d.eqns, Restores (eqnsToJson write)
        (toVector? 5 (toVector? 3 fun _ => read) (budget + 2)) rows
          (rows.map fun row => row.map f) := by
      intro rows hrows
      refine restores_vector fun row hrow => (restores_vector fun x hx => ?_).read_write
      refine (h x ?_).read_write
      rw [numbers, hrows]
      exact List.mem_flatMap.mpr ⟨row, hrow, hx⟩
    rw [toJson, ofJson?, nested, fields?_ofValues hnames rfl, Option.bind_eq_bind,
      Option.bind_some]
    refine optional_bind hnames 0 rfl rfl (fun ts _ => restores_texts ts) ?_
    refine optional_bind hnames 1 rfl rfl (fun ts _ => restores_texts ts) ?_
    refine optional_map_bind hnames 2 rfl rfl heqns ?_
    refine optional_bind hnames 3 rfl rfl (fun t _ => restores_text t) ?_
    refine optional_bind hnames 4 rfl rfl (fun t _ => restores_text t) ?_
    rfl

end TelemetryDefs

namespace Weather

def readings {N : Type} (w : Weather N) : List (Option N) :=
  [w.windDirection, w.windSpeed, w.windGust, w.temperature, w.rain1h, w.rain24h,
    w.rainSinceMidnight, w.humidity, w.pressure, w.luminosity, w.snow, w.rainRaw]

def numbers {N : Type} (w : Weather N) : List N := w.readings.flatMap Option.toList

theorem restores {w : Weather M} (h : ∀ x ∈ w.numbers, Restores write read x (f x)) :
    Restores (toJson write) (ofJson? read (budget + 1)) w (w.map f) where
  ne_null := nofun
  read_write := by
    have hnames : names.Nodup := nodup_map_toList (by simp)
    have hread (i : Nat) {o : Option M} (ho : w.readings[i]? = some o) :
        ∀ x ∈ o, Restores write read x (f x) := fun x hx =>
      h x (List.mem_flatMap.mpr ⟨o, List.mem_of_getElem? ho, Option.mem_toList.mpr hx⟩)
    rw [toJson, ofJson?, nested, fields?_ofValues hnames rfl, Option.bind_eq_bind,
      Option.bind_some]
    refine optional_map_bind hnames 0 rfl rfl (hread 0 rfl) ?_
    refine optional_map_bind hnames 1 rfl rfl (hread 1 rfl) ?_
    refine optional_map_bind hnames 2 rfl rfl (hread 2 rfl) ?_
    refine optional_map_bind hnames 3 rfl rfl (hread 3 rfl) ?_
    refine optional_map_bind hnames 4 rfl rfl (hread 4 rfl) ?_
    refine optional_map_bind hnames 5 rfl rfl (hread 5 rfl) ?_
    refine optional_map_bind hnames 6 rfl rfl (hread 6 rfl) ?_
    refine optional_map_bind hnames 7 rfl rfl (hread 7 rfl) ?_
    refine optional_map_bind hnames 8 rfl rfl (hread 8 rfl) ?_
    refine optional_map_bind hnames 9 rfl rfl (hread 9 rfl) ?_
    refine optional_map_bind hnames 10 rfl rfl (hread 10 rfl) ?_
    refine optional_map_bind hnames 11 rfl rfl (hread 11 rfl) ?_
    rfl

end Weather

namespace Record

def readings {N : Type} (r : Record N) : List (Option N) :=
  [r.latitude, r.longitude, r.course, r.speed, r.altitude, r.range]

/-- All that a record says in numbers with a fraction. -/
def numbers {N : Type} (r : Record N) : List N :=
  r.readings.flatMap Option.toList ++ r.phg.elim [] Phg.numbers ++
    r.telemetryDefs.elim [] TelemetryDefs.numbers ++ r.weather.elim [] Weather.numbers

theorem nodup_names : names.Nodup := nodup_map_toList (by simp)

/-- Three levels of arrays and objects are in a record: its definitions, their equations and the
coefficients of each. -/
theorem ofFields?_zip {r : Record M} (h : ∀ x ∈ r.numbers, Restores write read x (f x))
    (inner : Json) :
    ofFields? read (budget + 3) (names.zip (r.values write inner)) = some (r.map f) := by
  have hnames := nodup_names
  simp only [numbers, List.forall_mem_append] at h
  obtain ⟨⟨⟨hreadings, hphg⟩, hdefs⟩, hweather⟩ := h
  have hread (i : Nat) {o : Option M} (ho : r.readings[i]? = some o) :
      ∀ x ∈ o, Restores write read x (f x) := fun x hx =>
    hreadings x (List.mem_flatMap.mpr ⟨o, List.mem_of_getElem? ho, Option.mem_toList.mpr hx⟩)
  have hphg : ∀ p ∈ r.phg,
      Restores (Phg.toJson write) (Phg.ofJson? read (budget + 3)) p (p.map f) :=
    fun p hp => Phg.restores fun x hx => hphg x (by rwa [hp])
  have hdefs : ∀ d ∈ r.telemetryDefs,
      Restores (TelemetryDefs.toJson write) (TelemetryDefs.ofJson? read (budget + 3)) d (d.map f) :=
    fun d hd => TelemetryDefs.restores fun x hx => hdefs x (by rwa [hd])
  have hweather : ∀ w ∈ r.weather,
      Restores (Weather.toJson write) (Weather.ofJson? read (budget + 3)) w (w.map f) :=
    fun w hw => Weather.restores fun x hx => hweather x (by rwa [hw])
  have hmicE : ∀ bytes ∈ r.micETelemetry,
      Restores (fun bytes : List UInt8 => array (bytes.map fun b => ofNat b.toNat))
        (toList? (fun _ => toUInt8?) (budget + 3)) bytes (bytes.map id) :=
    fun bytes _ => restores_list fun b _ => (restores_uint8 b).read_write
  simp only [List.map_id] at hmicE
  rw [ofFields?]
  refine required_bind hnames 0 rfl rfl (restores_text r.raw).read_write ?_
  refine required_bind hnames 1 rfl rfl (restores_text r.source).read_write ?_
  refine required_bind hnames 2 rfl rfl (restores_text r.destination).read_write ?_
  refine required_bind hnames 3 rfl rfl (restores_texts r.path).read_write ?_
  refine optional_bind hnames 4 rfl rfl (fun f _ => f.restores _) ?_
  refine optional_map_bind hnames 5 rfl rfl (hread 0 rfl) ?_
  refine optional_map_bind hnames 6 rfl rfl (hread 1 rfl) ?_
  refine optional_bind hnames 7 rfl rfl (fun n _ => restores_uint8 n) ?_
  refine optional_bind hnames 8 rfl rfl (fun c _ => restores_char c) ?_
  refine optional_bind hnames 9 rfl rfl (fun c _ => restores_char c) ?_
  refine required_bind hnames 10 rfl rfl (restores_bool r.messageCapable).read_write ?_
  refine optional_map_bind hnames 11 rfl rfl (hread 2 rfl) ?_
  refine optional_map_bind hnames 12 rfl rfl (hread 3 rfl) ?_
  refine optional_map_bind hnames 13 rfl rfl (hread 4 rfl) ?_
  refine optional_bind hnames 14 rfl rfl (fun n _ => restores_uint16 n) ?_
  refine optional_bind hnames 15 rfl rfl (fun n _ => restores_uint16 n) ?_
  refine optional_map_bind hnames 16 rfl rfl hphg ?_
  refine optional_map_bind hnames 17 rfl rfl (hread 5 rfl) ?_
  refine optional_bind hnames 18 rfl rfl (fun b _ => restores_bool b) ?_
  refine optional_bind hnames 19 rfl rfl (fun c _ => restores_char c) ?_
  refine required_bind hnames 20 rfl rfl (restores_text r.comment).read_write ?_
  refine optional_bind hnames 21 rfl rfl (fun t _ => t.restores) ?_
  refine optional_bind hnames 22 rfl rfl hmicE ?_
  refine optional_map_bind hnames 23 rfl rfl hdefs ?_
  refine optional_map_bind hnames 24 rfl rfl hweather ?_
  refine optional_bind hnames 25 rfl rfl (fun t _ => restores_text t) ?_
  refine optional_bind hnames 26 rfl rfl (fun t _ => restores_text t) ?_
  refine optional_bind hnames 27 rfl rfl (fun t _ => restores_text t) ?_
  refine optional_bind hnames 28 rfl rfl (fun t _ => restores_text t) ?_
  refine optional_bind hnames 29 rfl rfl (fun t _ => restores_text t) ?_
  refine optional_bind hnames 30 rfl rfl (fun t _ => restores_text t) ?_
  refine optional_bind hnames 31 rfl rfl (fun a _ => a.restores _) ?_
  refine optional_bind hnames 32 rfl rfl (fun t _ => restores_text t) ?_
  refine optional_bind hnames 33 rfl rfl (fun t _ => restores_text t) ?_
  refine optional_bind hnames 34 rfl rfl (fun t _ => restores_text t) ?_
  refine optional_bind hnames 35 rfl rfl (fun t _ => restores_text t) ?_
  refine optional_bind hnames 36 rfl rfl (fun t _ => restores_text t) ?_
  refine optional_bind hnames 37 rfl rfl (fun b _ => restores_bool b) ?_
  refine optional_bind hnames 38 rfl rfl (fun f _ => f.restores _) ?_
  refine optional_bind hnames 39 rfl rfl (fun c _ => restores_char c) ?_
  refine optional_bind hnames 40 rfl rfl (fun c _ => restores_char c) ?_
  refine optional_bind hnames 41 rfl rfl (fun t _ => restores_text t) ?_
  refine optional_bind hnames 42 rfl rfl (fun t _ => restores_text t) ?_
  refine required_bind hnames 43 rfl rfl (toInt64?_ofInt r.timestamp) ?_
  rfl

end Record

namespace Packet

/-- The numbers of a packet and of all that it forwards. -/
def numbers {N : Type} (p : Packet N) : List N := p.records.flatMap Record.numbers

/-- A packet is read where three more levels than it has records may be opened. -/
theorem restores {p : Packet M} (h : ∀ x ∈ p.numbers, Restores write read x (f x))
    (hbudget : p.records.length + 3 ≤ budget) :
    Restores (toJson write) (ofJsonWithin? read budget) p (p.map f) := by
  induction p generalizing budget with
  | plain r =>
    rw [records, List.length_singleton] at hbudget
    obtain ⟨budget, rfl⟩ : ∃ n, budget = n + 4 := ⟨budget - 4, by omega⟩
    have hnumbers : ∀ x ∈ r.numbers, Restores write read x (f x) := by
      simpa [numbers, records] using h
    refine ⟨nofun, ?_⟩
    rw [toJson, ofJsonWithin?, fields?_ofValues Record.nodup_names rfl, Option.bind_eq_bind,
      Option.bind_some, Record.ofFields?_zip hnumbers, Option.bind_eq_bind, Option.bind_some]
    have hinner : ∀ q ∈ (none : Option (Packet M)),
        Restores (toJson write) (ofJsonWithin? read (budget + 3)) q (q.map f) := nofun
    exact optional_map_bind Record.nodup_names 44 rfl rfl hinner rfl
  | forwarding r p ih =>
    rw [records, List.length_cons] at hbudget
    obtain ⟨budget, rfl⟩ : ∃ n, budget = n + 4 := ⟨budget - 4, by omega⟩
    simp only [numbers, records, List.flatMap_cons, List.forall_mem_append] at h
    obtain ⟨hnumbers, hinner⟩ := h
    have hp : ∀ q ∈ some p,
        Restores (toJson write) (ofJsonWithin? read (budget + 3)) q (q.map f) := by
      rintro _ ⟨rfl⟩
      exact ih hinner (by omega)
    refine ⟨nofun, ?_⟩
    rw [toJson, ofJsonWithin?, fields?_ofValues Record.nodup_names rfl, Option.bind_eq_bind,
      Option.bind_some, Record.ofFields?_zip hnumbers, Option.bind_eq_bind, Option.bind_some]
    exact optional_map_bind Record.nodup_names 44 rfl rfl hp rfl

end Packet

section Refusal

variable {x : M} (h : read (write x) = none)
include h

theorem TelemetryDefs.ofJson?_eq_none {d : TelemetryDefs M} (hx : x ∈ d.numbers) (budget : Nat) :
    ofJson? read budget (d.toJson write) = none := by
  have hnames : names.Nodup := nodup_map_toList (by simp)
  cases budget with
  | zero => rfl
  | succ budget =>
    rw [toJson, ofJson?, nested, fields?_ofValues hnames rfl, Option.bind_eq_bind,
      Option.bind_some]
    rw [numbers] at hx
    cases hrows : d.eqns with
    | none =>
      rw [hrows] at hx
      cases hx
    | some rows =>
      rw [hrows] at hx
      obtain ⟨row, hrow, hx⟩ := List.mem_flatMap.mp hx
      have hcells : ∀ budget, toVector? 3 (fun _ => read) budget
          (array (row.toList.map write)) = none := toVector?_eq_none hx fun _ => h
      have hread : toVector? 5 (toVector? 3 fun _ => read) budget (eqnsToJson write rows) = none :=
        toVector?_eq_none hrow hcells budget
      have heqns : Fields.optional (names.zip [ofOption ofTexts d.parmNames,
          ofOption ofTexts d.unitNames, ofOption (eqnsToJson write) (some rows),
          ofOption ofText d.bitsMask, ofOption ofText d.title]) "eqns"
          (toVector? 5 (toVector? 3 fun _ => read) budget) = none :=
        optional_eq_none hnames 2 rfl rfl nofun hread
      iterate 2 refine Option.bind_eq_none_iff.mpr fun _ _ => ?_
      rw [heqns]
      rfl

theorem Record.ofFields?_eq_none {r : Record M} {d : TelemetryDefs M} (hd : d ∈ r.telemetryDefs)
    (hx : x ∈ d.numbers) (inner : Json) (budget : Nat) :
    ofFields? read budget (names.zip (r.values write inner)) = none := by
  have hdefs : Fields.optional (names.zip (r.values write inner)) "telemetryDefs"
      (TelemetryDefs.ofJson? read budget) = none := by
    refine optional_eq_none nodup_names 23 rfl rfl ?_ ?_
    · rw [hd]
      exact nofun
    · rw [hd]
      exact TelemetryDefs.ofJson?_eq_none h hx budget
  rw [ofFields?]
  iterate 23 refine Option.bind_eq_none_iff.mpr fun _ _ => ?_
  rw [hdefs]
  rfl

/-- A packet is not read if a coefficient in it is not. -/
theorem Packet.ofJsonWithin?_eq_none {p : Packet M} {r : Record M} {d : TelemetryDefs M}
    (hr : r ∈ p.records) (hd : d ∈ r.telemetryDefs) (hx : x ∈ d.numbers) (budget : Nat) :
    ofJsonWithin? read budget (p.toJson write) = none := by
  induction p generalizing budget with
  | plain s =>
    cases budget with
    | zero => rfl
    | succ budget =>
      obtain rfl := List.mem_singleton.mp hr
      rw [toJson, ofJsonWithin?, fields?_ofValues Record.nodup_names rfl, Option.bind_eq_bind,
        Option.bind_some, Record.ofFields?_eq_none h hd hx]
      rfl
  | forwarding s p ih =>
    cases budget with
    | zero => rfl
    | succ budget =>
      rw [toJson, ofJsonWithin?, fields?_ofValues Record.nodup_names rfl, Option.bind_eq_bind,
        Option.bind_some]
      rcases List.mem_cons.mp hr with rfl | hr
      · rw [Record.ofFields?_eq_none h hd hx]
        rfl
      · refine Option.bind_eq_none_iff.mpr fun _ _ => ?_
        have hnull : toJson write p ≠ null := by cases p <;> exact nofun
        rw [optional_eq_none Record.nodup_names 44 rfl rfl hnull (ih hr budget)]
        rfl

end Refusal

end Parts

section Identity

variable {N : Type}

theorem Phg.map_id : Phg.map (id : N → N) = id := rfl

theorem TelemetryDefs.map_id : TelemetryDefs.map (id : N → N) = id := by
  funext d
  simp [TelemetryDefs.map]

theorem Weather.map_id : Weather.map (id : N → N) = id := by
  funext w
  simp [Weather.map]

theorem Record.map_id (r : Record N) : r.map id = r := by
  simp [Record.map, Phg.map_id, TelemetryDefs.map_id, Weather.map_id]

theorem Packet.map_id (p : Packet N) : p.map id = p := by
  induction p with
  | plain r => rw [map, r.map_id]
  | forwarding r p ih => rw [map, r.map_id, ih]

end Identity

section Legibility

theorem Json.legible_ofOption_iff {f : α → Json} {o : Option α} :
    Legible (ofOption f o) ↔ ∀ a ∈ o, Legible (f a) := by
  cases o with
  | none => exact ⟨fun _ => nofun, fun _ => Legible.null⟩
  | some a => simp [ofOption]

theorem Json.legible_array_iff {items : List Json} :
    Legible (array items) ↔ ∀ item ∈ items, Legible item :=
  ⟨fun | .array h => h, .array⟩

theorem Json.legible_ofInt (i : Int) : Legible (ofInt i) := .number fun _ h => nomatch h

theorem Json.legible_ofTexts (ts : List Text) : Legible (ofTexts ts) := by
  rw [ofTexts, legible_array_iff, List.forall_mem_map]
  exact fun t _ => .string t

theorem Json.legible_ofValues {names : List Text} {values : List Json}
    (h : ∀ value ∈ values, Legible value) : Legible (ofValues names values) :=
  .object fun _ hmember => h _ (List.of_mem_zip hmember).2

theorem JsonNumber.isDigit_fraction_ofDigits {negative : Bool} {digits : Nat} {exponent : Int} :
    ∀ c ∈ (ofDigits negative digits exponent).fraction, c.isDigit = true := by
  intro c hc
  simp only [ofDigits] at hc
  split at hc
  · exact Text.isDigit_of_mem_toDigits (List.mem_of_mem_drop hc)
  split at hc
  · rw [List.mem_singleton] at hc
    subst hc
    rfl
  · rw [Decimal.padded, List.mem_append, List.mem_replicate] at hc
    obtain ⟨-, rfl⟩ | hc := hc
    · rfl
    · exact Text.isDigit_of_mem_toDigits hc

theorem JsonNumber.isSome_ofFloat? (x : Float) : (ofFloat? x).isSome = isFinite x := by
  rw [ofFloat?, isFinite]
  split
  · next heq => rw [heq]; rfl
  · next heq => rw [heq]; rfl
  · next hzero hother =>
    split
    · next negative mantissa exponent heq => exact absurd heq (hother negative mantissa exponent)
    · rfl

theorem Json.ofFloat_eq_null_iff {x : Float} : ofFloat x = null ↔ isFinite x = false := by
  rw [← JsonNumber.isSome_ofFloat?, Option.isSome_eq_false_iff, Option.isNone_iff_eq_none, ofFloat]
  cases JsonNumber.ofFloat? x with
  | none => exact iff_of_true rfl rfl
  | some n => exact iff_of_false nofun nofun

theorem Json.legible_ofFloat (x : Float) : Legible (ofFloat x) := by
  rw [ofFloat, legible_ofOption_iff]
  intro n hn
  refine .number ?_
  rw [JsonNumber.ofFloat?] at hn
  split at hn
  · cases hn
    exact JsonNumber.isDigit_fraction_ofDigits
  · cases hn
    exact JsonNumber.isDigit_fraction_ofDigits
  · cases hn

variable {N : Type} {write : N → Json} (h : ∀ x, Legible (write x))
include h

theorem Phg.legible (p : Phg N) : Legible (p.toJson write) := by
  refine legible_ofValues ?_
  have hdirectivity : Legible p.directivity.toJson := by
    cases p.directivity with
    | omni | invalid => exact .string _
    | degrees bearing =>
      refine .object ?_
      rw [List.forall_mem_singleton]
      exact legible_ofInt _
  simp [ofText, ofNat, Legible.string, legible_ofOption_iff, legible_ofInt, h, hdirectivity]

omit h in
theorem Telemetry.legible (t : Telemetry) : Legible t.toJson := by
  refine legible_ofValues ?_
  simp [ofText, ofNat, Legible.string, legible_ofOption_iff, legible_ofInt, legible_array_iff]

theorem TelemetryDefs.legible (d : TelemetryDefs N) : Legible (d.toJson write) := by
  refine legible_ofValues ?_
  simp [ofText, eqnsToJson, Legible.string, legible_ofOption_iff, legible_ofTexts,
    legible_array_iff, h]

theorem Weather.legible (w : Weather N) : Legible (w.toJson write) := by
  refine legible_ofValues ?_
  simp [legible_ofOption_iff, h]

theorem Record.legible (r : Record N) {inner : Json} (hinner : Legible inner) :
    Legible (ofValues names (r.values write inner)) := by
  refine legible_ofValues ?_
  simp [values, ofText, ofNat, ofChar, ofString, Format.toJson, Response.toJson, Legible.string,
    Legible.bool, legible_ofOption_iff, legible_ofInt, legible_ofTexts, legible_array_iff, h,
    Phg.legible h, Telemetry.legible, TelemetryDefs.legible h, Weather.legible h, hinner]

theorem Packet.legible (p : Packet N) : Legible (p.toJson write) := by
  induction p with
  | plain r => exact r.legible h .null
  | forwarding r p ih => exact r.legible h ih

end Legibility

namespace Packet

/-- A packet is read from the text of its document, however that is laid out. -/
theorem read_text {p : Packet Float} {read : Json → Option Float}
    (hfinite : ∀ x ∈ p.numbers, isFinite x = true)
    (hdepth : p.records.length + 3 ≤ deepestLevel)
    (hread : ∀ x ∈ p.numbers, (parse? (ofFloat x).compact).bind read = some x) :
    (parse? (p.toJson ofFloat).compact).bind (ofJson? read) = some p ∧
      (parse? ((p.toJson ofFloat).pretty 0)).bind (ofJson? read) = some p := by
  have hnumbers : ∀ x ∈ p.numbers, Restores ofFloat read x (id x) := by
    intro x hx
    have htext := hread x hx
    rw [(legible_ofFloat x).parse?_text.1, Option.bind_some] at htext
    refine ⟨?_, htext⟩
    rw [Ne, ofFloat_eq_null_iff, hfinite x hx]
    decide
  have hrestores : ofJson? read (p.toJson ofFloat) = some (p.map id) :=
    (restores hnumbers hdepth).read_write
  rw [map_id] at hrestores
  obtain ⟨hcompact, hpretty⟩ := (p.legible legible_ofFloat).parse?_text
  rw [hcompact, hpretty]
  exact ⟨hrestores, hrestores⟩

/-- A position in front of a packet with equations, directivity, quotes and signs of other
scripts. -/
def sample : Packet Float :=
  .forwarding
    { raw := "N0CALL>APRS:\x7d".toList
      path := ["WIDE1-1".toList, "WIDE2-2*".toList]
      format := some .thirdParty
      latitude := some 49.05833333333333
      longitude := some (-72.02916666666667)
      symbolTable := some '/'
      symbolCode := some '"'
      phg := some ⟨"5132".toList, 25, 6.096, 1.9952623149688795, .degrees 90, 18.8, some 7⟩
      telemetry := some ⟨7544, #v[1472, 1564, 1656, 1748, 8280], none⟩
      micETelemetry := some [1, 255] }
    (.plain
      { raw := "\"\\\t\x01é😀".toList
        telemetryDefs := some { eqns := some #v[#v[0, 5.2, 0], #v[0, -0.53, -32], #v[3, 4.39, 49],
          #v[-32, 3, 18], #v[1, 2, 3e-7]] }
        weather := some { temperature := some (-8.333333333333334) }
        timestamp := -1 })

theorem read_text_sample :
    (∀ x ∈ sample.numbers, isFinite x = true) ∧
      sample.records.length + 3 ≤ deepestLevel ∧
      (parse? (sample.toJson ofFloat).compact).bind (ofJson? Json.toFloat?) = some sample ∧
      (parse? ((sample.toJson ofFloat).pretty 0)).bind (ofJson? Json.toFloat?) = some sample := by
  have hfinite : ∀ x ∈ sample.numbers, isFinite x = true := by decide +kernel
  have hread : ∀ x ∈ sample.numbers,
      (parse? (ofFloat x).compact).bind Json.toFloat? = some x := by decide +kernel
  exact ⟨hfinite, by decide, read_text hfinite (by decide) hread⟩

end Packet

end Aprs
