import Mathlib.Data.List.Forall2
import ItemExpr.Proofs.Text.Order
import ItemExpr.Proofs.Time.Calendar
import ItemExpr.Session

/-!
# Timestamps

A timestamp in universal time shows its fields in fixed places, from the year down. Timestamps of one format are
therefore ordered as the instants are.
-/

namespace ItemExpr

open Text

/-! ## Instants -/

namespace DateTime

/-- An instant is at another one or before it: it lies in an earlier second, or in the same second and not later. A leap
second counts as the second before it, in which its nanoseconds run past a whole second. -/
def AtOrBefore (a b : DateTime) : Prop :=
  a.epochSeconds < b.epochSeconds ∨ a.epochSeconds = b.epochSeconds ∧ a.time.nanoseconds ≤ b.time.nanoseconds

/-- Two clocks show the same instant. -/
def SameInstant (a b : DateTime) : Prop :=
  a.epochSeconds = b.epochSeconds ∧ a.time.nanoseconds = b.time.nanoseconds

/-- Two instants lie in the same ten-millionth of a second. -/
def SameTick (a b : DateTime) : Prop :=
  a.epochSeconds = b.epochSeconds ∧ a.time.nanoseconds / 100 = b.time.nanoseconds / 100

/-- A clock that is whole minutes from universal time, that shows leap seconds at the end of a minute, and whose year in
universal time has at most four digits. -/
structure Sortable (t : DateTime) : Prop where
  minutes : t.offset % 60 = 0
  leap : 1000000000 ≤ t.time.nanoseconds → t.time.second = 59
  year_nonneg : 0 ≤ t.toUtc.date.year
  year_le : t.toUtc.date.year ≤ 9999

/-- A clock that shows universal time, with leap seconds at the end of a minute, in a year of at most four digits. -/
structure Universal (t : DateTime) : Prop where
  offset : t.offset = 0
  leap : 1000000000 ≤ t.time.nanoseconds → t.time.second = 59
  year_nonneg : 0 ≤ t.date.year
  year_le : t.date.year ≤ 9999

variable {a b t : DateTime}

theorem Sortable.universal (sortable : t.Sortable) : t.toUtc.Universal where
  offset := t.toUtc_offset
  leap := by
    rw [toUtc_nanoseconds, toUtc_second sortable.minutes]
    exact sortable.leap
  year_nonneg := sortable.year_nonneg
  year_le := sortable.year_le

theorem atOrBefore_toUtc : a.toUtc.AtOrBefore b.toUtc ↔ a.AtOrBefore b := by
  simp only [AtOrBefore, toUtc_epochSeconds, toUtc_nanoseconds]

theorem sameTick_toUtc : a.toUtc.SameTick b.toUtc ↔ a.SameTick b := by
  simp only [SameTick, toUtc_epochSeconds, toUtc_nanoseconds]

/-- Clocks that show the same instant come to one universal time. -/
theorem SameInstant.toUtc_eq (same : a.SameInstant b) : a.toUtc = b.toUtc := by
  obtain ⟨seconds, nanoseconds⟩ := same
  rw [← a.toUtc_epochSeconds, ← b.toUtc_epochSeconds] at seconds
  rw [← a.toUtc_nanoseconds, ← b.toUtc_nanoseconds] at nanoseconds
  have aOffset := a.toUtc_offset
  have bOffset := b.toUtc_offset
  generalize a.toUtc = x at *
  generalize b.toUtc = y at *
  obtain ⟨aDate, ⟨aSeconds, _, aSeconds_lt, _⟩, _, _, _⟩ := x
  obtain ⟨bDate, ⟨bSeconds, _, bSeconds_lt, _⟩, _, _, _⟩ := y
  obtain rfl := aOffset
  obtain rfl := bOffset
  obtain rfl := nanoseconds
  simp only [epochSeconds] at seconds
  obtain rfl : aSeconds = bSeconds := by omega
  obtain rfl : aDate = bDate := Date.epochDay_injective (by omega)
  rfl

/-- The clock of a place shows the same instant. -/
theorem sameInstant_shows (clock : LocalClock) (t : DateTime) : (clock.shows t).SameInstant t :=
  ⟨t.atOffset_epochSeconds _ _, t.atOffset_nanoseconds _ _⟩

/-- What the clock of a place shows is the same for clocks that show the same instant. -/
theorem SameInstant.shows_eq (same : a.SameInstant b) (clock : LocalClock) : clock.shows a = clock.shows b := by
  simp only [LocalClock.shows, atOffset, same.toUtc_eq]

/-! ## What a timestamp shows -/

/-- The numbers that a timestamp shows, from the year down to the second, in which a leap second is counted. -/
def fields (t : DateTime) : List Nat :=
  [t.date.year.toNat, t.date.month, t.date.day, t.time.hour, t.time.minute, t.time.secondCounted]

/-- The ten-millionth of the second that a timestamp shows. -/
def tick (t : DateTime) : Nat :=
  t.time.fraction / 100

namespace Universal

theorem not_atOrBefore_of_epochDay (universal : a.Universal) (other : b.Universal)
    (before : a.date.epochDay < b.date.epochDay) : ¬ b.AtOrBefore a := by
  have most := a.time.seconds_lt
  have aUtc := universal.offset
  have bUtc := other.offset
  unfold AtOrBefore epochSeconds
  omega

theorem epochSeconds_of_date (universal : a.Universal) (other : b.Universal) (date : a.date = b.date) :
    (a.epochSeconds < b.epochSeconds ↔ a.time.seconds < b.time.seconds) ∧
      (a.epochSeconds = b.epochSeconds ↔ a.time.seconds = b.time.seconds) := by
  have aUtc := universal.offset
  have bUtc := other.offset
  unfold epochSeconds
  rw [date]
  omega

/-- The numbers down to the second tell the day and the second of the day, and whether it is a leap second. -/
theorem second_of_fields_eq (universal : a.Universal) (other : b.Universal) (same : a.fields = b.fields) :
    a.date = b.date ∧ a.time.seconds = b.time.seconds ∧
      a.time.nanoseconds / 1000000000 = b.time.nanoseconds / 1000000000 := by
  simp only [fields, List.cons.injEq, and_true] at same
  obtain ⟨year, month, day, hour, minute, second⟩ := same
  have aYear := universal.year_nonneg
  have bYear := other.year_nonneg
  refine ⟨Date.eq_of_fields (by omega) month day, ?_⟩
  have aShort := a.time.nanoseconds_lt
  have bShort := b.time.nanoseconds_lt
  have aLeap := universal.leap
  have bLeap := other.leap
  unfold TimeOfDay.hour at hour
  unfold TimeOfDay.minute at minute
  unfold TimeOfDay.secondCounted at second
  unfold TimeOfDay.second at second aLeap bLeap
  omega

/-- Where the numbers down to the second are less, the instant is before. -/
theorem not_atOrBefore_of_fields (universal : a.Universal) (other : b.Universal) (before : a.fields < b.fields) :
    ¬ b.AtOrBefore a := by
  have aYear := universal.year_nonneg
  have bYear := other.year_nonneg
  simp only [fields, List.cons_lt_cons_iff, List.not_lt_nil, and_false, or_false] at before
  obtain year | ⟨year, month | ⟨month, day | ⟨day, clock⟩⟩⟩ := before
  · exact not_atOrBefore_of_epochDay universal other (Date.epochDay_lt_of_year (by omega))
  · exact not_atOrBefore_of_epochDay universal other (Date.epochDay_lt_of_month (by omega) month)
  · exact not_atOrBefore_of_epochDay universal other (Date.epochDay_lt_of_day (by omega) month day)
  · obtain ⟨less, equal⟩ := epochSeconds_of_date universal other (Date.eq_of_fields (by omega) month day)
    have aShort := a.time.nanoseconds_lt
    have bShort := b.time.nanoseconds_lt
    unfold TimeOfDay.hour TimeOfDay.minute TimeOfDay.secondCounted TimeOfDay.second at clock
    unfold AtOrBefore
    omega

/-- Where the numbers down to the second are the same, the instants are ordered as their nanoseconds are. -/
theorem not_atOrBefore_of_tick (universal : a.Universal) (other : b.Universal) (same : a.fields = b.fields)
    (before : a.tick < b.tick) : ¬ b.AtOrBefore a := by
  obtain ⟨date, seconds, whole⟩ := second_of_fields_eq universal other same
  obtain ⟨less, equal⟩ := epochSeconds_of_date universal other date
  unfold tick TimeOfDay.fraction at before
  unfold AtOrBefore
  omega

theorem sameTick_of_fields (universal : a.Universal) (other : b.Universal) (same : a.fields = b.fields)
    (ticks : a.tick = b.tick) : a.SameTick b := by
  obtain ⟨date, seconds, whole⟩ := second_of_fields_eq universal other same
  obtain ⟨-, equal⟩ := epochSeconds_of_date universal other date
  unfold tick TimeOfDay.fraction at ticks
  unfold SameTick
  omega

end Universal

end DateTime

/-! ## The texts of timestamps -/

namespace Format

variable {t : DateTime} {format : Option String}

theorem twoPlaces_natCast {n : Nat} (small : n < 100) : twoPlaces (n : Int) .zeros = zeroPadded 2 n := by
  have all : ∀ n < 100, twoPlaces ((n : Nat) : Int) .zeros = zeroPadded 2 n := by decide
  exact all n small

theorem yearPlaces_of_fourDigits {year : Int} (nonnegative : 0 ≤ year) (most : year ≤ 9999) :
    yearPlaces year .zeros = zeroPadded 4 year.toNat := by
  rw [yearPlaces, if_pos ⟨nonnegative, most⟩, manyPlaces, signedPadded, if_neg (by omega)]
  congr 1
  omega

theorem text_year (nonnegative : 0 ≤ t.date.year) (most : t.date.year ≤ 9999) :
    NumericField.year.text t .zeros = zeroPadded 4 t.date.year.toNat :=
  yearPlaces_of_fourDigits nonnegative most

theorem text_month : NumericField.month.text t .zeros = zeroPadded 2 t.date.month := by
  have most := t.date.month_le
  exact twoPlaces_natCast (by omega)

theorem text_day : NumericField.day.text t .zeros = zeroPadded 2 t.date.day := by
  have most := Nat.le_trans t.date.day_le (monthLength_le _ _)
  exact twoPlaces_natCast (by omega)

theorem text_hour : NumericField.hour.text t .zeros = zeroPadded 2 t.time.hour := by
  have most := t.time.hour_lt
  exact twoPlaces_natCast (by omega)

theorem text_minute : NumericField.minute.text t .zeros = zeroPadded 2 t.time.minute := by
  have most := t.time.minute_lt
  exact twoPlaces_natCast (by omega)

theorem text_second : NumericField.second.text t .zeros = zeroPadded 2 t.time.secondCounted := by
  have most := t.time.secondCounted_le
  exact twoPlaces_natCast (by omega)

/-- The fields from the year down to the second, with a character between the day and the time of day and some behind
the last field. -/
def timestampLayout (between : Char) (behind : List Char) : Layout :=
  [(4, ['-']), (2, ['-']), (2, [between]), (2, [':']), (2, [':']), (2, behind)]

theorem fits_timestampLayout (universal : t.Universal) (between : Char) (behind : List Char) :
    (timestampLayout between behind).Fits t.fields := by
  have year := universal.year_le
  have month := t.date.month_le
  have day := Nat.le_trans t.date.day_le (monthLength_le _ _)
  have second := t.time.secondCounted_le
  have hour := t.time.hour_lt
  have minute := t.time.minute_lt
  unfold timestampLayout DateTime.fields
  refine .cons ⟨?_, ?_⟩ (.cons ⟨?_, ?_⟩ (.cons ⟨?_, ?_⟩ (.cons ⟨?_, ?_⟩ (.cons ⟨?_, ?_⟩ (.cons ⟨?_, ?_⟩ .nil))))) <;>
    dsimp only <;> omega

theorem text_timestampLayout (universal : t.Universal) (between : Char) (behind : List Char) :
    (timestampLayout between behind).text t.fields = dayText t ++ between :: (clockText t ++ behind) := by
  simp [timestampLayout, DateTime.fields, Layout.text, dayText, clockText, isoDate, clockTime, joined,
    DirectiveItem.text, text_year universal.year_nonneg universal.year_le, text_month, text_day, text_hour, text_minute,
    text_second]

/-- The layout of the timestamps of a format. -/
def layoutOf : Option String → Layout
  | some "s" => timestampLayout 'T' []
  | some "u" => timestampLayout ' ' ['Z']
  | _ => timestampLayout 'T' ['.'] ++ [(7, ['Z'])]

/-- The numbers that a timestamp of a format shows. -/
def shownBy : Option String → DateTime → List Nat
  | some "s", t | some "u", t => t.fields
  | _, t => t.fields ++ [t.tick]

def timestampText (format : Option String) (t : DateTime) : List Char :=
  (layoutOf format).text (shownBy format t)

/-- A format whose timestamps can be sorted; without a format the default one is taken. -/
def Sorts (format : Option String) : Prop :=
  format = none ∨ format = some "o" ∨ format = some "s" ∨ format = some "u"

theorem fits_layoutOf (universal : t.Universal) (sorts : Sorts format) :
    (layoutOf format).Fits (shownBy format t) := by
  have small : t.tick < 10 ^ 7 := by
    unfold DateTime.tick TimeOfDay.fraction
    omega
  have last : Layout.Fits [(7, ['Z'])] [t.tick] := .cons ⟨by decide, small⟩ .nil
  obtain rfl | rfl | rfl | rfl := sorts
  · exact List.rel_append (fits_timestampLayout universal _ _) last
  · exact List.rel_append (fits_timestampLayout universal _ _) last
  · exact fits_timestampLayout universal _ _
  · exact fits_timestampLayout universal _ _

/-- Where the numbers of a timestamp are less, the instant is before. -/
theorem not_atOrBefore_of_shownBy {a b : DateTime} (universal : a.Universal) (other : b.Universal)
    (sorts : Sorts format) (before : shownBy format a < shownBy format b) : ¬ b.AtOrBefore a := by
  have ticked : a.fields ++ [a.tick] < b.fields ++ [b.tick] → ¬ b.AtOrBefore a := by
    intro before
    rw [append_lt_append_iff (show a.fields.length = b.fields.length from rfl), List.cons_lt_cons_iff] at before
    obtain fields | ⟨same, tick | ⟨-, none⟩⟩ := before
    · exact universal.not_atOrBefore_of_fields other fields
    · exact universal.not_atOrBefore_of_tick other same tick
    · exact absurd none (List.lt_irrefl _)
  obtain rfl | rfl | rfl | rfl := sorts
  · exact ticked before
  · exact ticked before
  · exact universal.not_atOrBefore_of_fields other before
  · exact universal.not_atOrBefore_of_fields other before

theorem sortable_eq_text (universal : t.Universal) : sortable t = (timestampLayout 'T' []).text t.fields := by
  rw [text_timestampLayout universal, List.append_nil, sortable]

theorem universal_eq_text (universal : t.Universal) :
    Format.universal t = (timestampLayout ' ' ['Z']).text t.fields := by
  rw [text_timestampLayout universal, Format.universal, DateTime.toUtc_of_offset universal.offset, List.append_assoc]
  rfl

theorem roundTrip_eq_text (universal : t.Universal) :
    roundTrip t = (timestampLayout 'T' ['.'] ++ [(7, ['Z'])]).text (t.fields ++ [t.tick]) := by
  rw [Layout.text_append (fits_timestampLayout universal _ _), text_timestampLayout universal, roundTrip, sortable,
    universal.offset]
  simp [Layout.text, offsetTextZulu, DateTime.tick]

end Format

/-! ## Stored timestamps -/

/-- A property that stores timestamps in universal time and in clear, in one of the formats that can be sorted. -/
structure Property.StoresTimestamps (property : Property) : Prop where
  timezone : property.timezone = .utc
  encrypted : property.encrypted = false
  format : Format.Sorts property.format

namespace Session

variable {session : Session} {property : Property} {a b t : DateTime}

theorem render_timestamp {format : Option String} {dateFormat : String} (sorts : Format.Sorts format)
    (default : format = none → dateFormat = "o") (universal : t.Universal) :
    (Value.dateTime t).render format dateFormat =
      .ok (.string (String.ofList (Format.timestampText format t))) := by
  have stored : ∀ {text shown : List Char}, text = shown →
      (Except.ok (AttributeValue.string (String.ofList text)) : Except FormatError AttributeValue) =
        .ok (.string (String.ofList shown)) := by
    rintro text _ rfl
    rfl
  obtain rfl | rfl | rfl | rfl := sorts
  · rw [default rfl]
    exact stored (Format.roundTrip_eq_text universal)
  · exact stored (Format.roundTrip_eq_text universal)
  · exact stored (Format.sortable_eq_text universal)
  · exact stored (Format.universal_eq_text universal)

/-- Whichever clock a property stores an instant on, it stays the same instant. -/
theorem normalize_dateTime (session : Session) (mode : TimezoneMode) (t : DateTime) :
    ∃ shown : DateTime, session.normalize mode (.dateTime t) = .dateTime shown ∧ shown.SameInstant t := by
  cases mode with
  | none => exact ⟨t, rfl, rfl, rfl⟩
  | utc => exact ⟨t.toUtc, rfl, t.toUtc_epochSeconds, t.toUtc_nanoseconds⟩
  | «local» => exact ⟨session.clock.shows t, rfl, DateTime.sameInstant_shows _ t⟩

/-- A property that stores instants on a clock of its own stores the same instant as the same value, on whichever clock
it was given. -/
theorem encode_eq_of_sameInstant (clocked : property.timezone ≠ .none) (same : a.SameInstant b) (spec : Option String) :
    session.encode (.dateTime a) (some property) spec = session.encode (.dateTime b) (some property) spec := by
  have normalized : session.normalize property.timezone (.dateTime a) =
      session.normalize property.timezone (.dateTime b) := by
    cases mode : property.timezone with
    | none => exact absurd mode clocked
    | utc => exact congrArg Value.dateTime same.toUtc_eq
    | «local» => exact congrArg Value.dateTime (same.shows_eq session.clock)
  simp only [encode, normalized]

/-- What an instant is stored as: the numbers that the format of the property shows, in their places. -/
theorem encode_timestamp (stores : property.StoresTimestamps)
    (default : property.format = none → session.dateFormat = "o") (universal : t.toUtc.Universal) :
    session.encode (.dateTime t) (some property) none =
      .ok (.string (String.ofList (Format.timestampText property.format t.toUtc))) := by
  have chosen : session.renderFor property (session.normalize property.timezone (.dateTime t)) none =
      .ok (.string (String.ofList (Format.timestampText property.format t.toUtc))) := by
    rw [stores.timezone]
    change ((Value.dateTime t.toUtc).render property.format session.dateFormat).mapError
      (Error.unsupported ∘ Unsupported.format) = _
    rw [render_timestamp stores.format default universal]
    rfl
  unfold encode
  dsimp only
  rw [chosen, stores.encrypted]
  rfl

/-- Instants are stored as texts whose bytes are ordered as the instants are. The same instant is always stored as the
same text, and with ten-millionths of a second only instants of the same ten-millionth are. -/
theorem timestamps_sorted (stores : property.StoresTimestamps)
    (default : property.format = none → session.dateFormat = "o") (aSortable : a.Sortable) (bSortable : b.Sortable) :
    ∃ x y, session.encode (.dateTime a) (some property) none = .ok (.string x) ∧
      session.encode (.dateTime b) (some property) none = .ok (.string y) ∧
      (a.AtOrBefore b → Bytes.ofText x ≤ Bytes.ofText y) ∧
      (a.SameInstant b → x = y) ∧
      (property.format = none ∨ property.format = some "o" → x = y → a.SameTick b) := by
  have aUniversal := aSortable.universal
  have bUniversal := bSortable.universal
  have aFits := Format.fits_layoutOf aUniversal stores.format
  have bFits := Format.fits_layoutOf bUniversal stores.format
  refine ⟨_, _, encode_timestamp stores default aUniversal, encode_timestamp stores default bUniversal, ?_, ?_, ?_⟩
  · intro atOrBefore
    rw [Bytes.ofText_ofList, Bytes.ofText_ofList, ← List.not_lt, Format.timestampText, Format.timestampText,
      Layout.bytes_lt_iff bFits aFits]
    intro before
    exact Format.not_atOrBefore_of_shownBy bUniversal aUniversal stores.format before
      (DateTime.atOrBefore_toUtc.2 atOrBefore)
  · intro same
    have clocked : property.timezone ≠ .none := by
      rw [stores.timezone]
      exact nofun
    have stored := @encode_eq_of_sameInstant session _ _ _ clocked same none
    rw [encode_timestamp stores default aUniversal, encode_timestamp stores default bUniversal] at stored
    exact AttributeValue.string.inj (Except.ok.inj stored)
  · intro format same
    have shown := Layout.eq_of_text_eq aFits bFits (String.ofList_injective same)
    have ticked : a.toUtc.fields ++ [a.toUtc.tick] = b.toUtc.fields ++ [b.toUtc.tick] := by
      obtain format | format := format
      · rwa [format] at shown
      · rwa [format] at shown
    obtain ⟨fields, ticks⟩ := List.append_inj ticked rfl
    exact DateTime.sameTick_toUtc.1 (aUniversal.sameTick_of_fields bUniversal fields (List.cons.inj ticks).1)

end Session

/-! ## An example

Half a second into the leap second at the end of 2016, on a clock one hour ahead of universal time, and a thousandth of
a second into the new year that follows it, on a clock five hours behind. -/

def DateTime.leapSecond : DateTime where
  date := ⟨2017, 1, 1, by decide, by decide, by decide, by decide⟩
  time := ⟨3599, 1500000000, by decide, by decide⟩
  offset := 3600
  offset_gt := by decide
  offset_lt := by decide

def DateTime.newYear : DateTime where
  date := ⟨2016, 12, 31, by decide, by decide, by decide, by decide⟩
  time := ⟨68400, 1000000, by decide, by decide⟩
  offset := -18000
  offset_gt := by decide
  offset_lt := by decide

/-- The leap second is stored as a text before that of the new year, although the first clock shows the new year
already and the second one still the old. -/
theorem Session.timestamps_sorted_of_leapSecond :
    let session := Session.new .standard none
    let openedAt : Property := { Property.plain "OpenedAt" "opened_at" with timezone := .utc }
    session.encode (.dateTime .leapSecond) (some openedAt) none = .ok (.string "2016-12-31T23:59:60.5000000Z") ∧
      session.encode (.dateTime .newYear) (some openedAt) none = .ok (.string "2017-01-01T00:00:00.0010000Z") ∧
      Bytes.ofText "2016-12-31T23:59:60.5000000Z" ≤ Bytes.ofText "2017-01-01T00:00:00.0010000Z" := by
  intro session openedAt
  have stores : openedAt.StoresTimestamps := ⟨rfl, rfl, .inl rfl⟩
  have leapSecond : DateTime.leapSecond.Sortable := ⟨by decide, by decide, by decide, by decide⟩
  have newYear : DateTime.newYear.Sortable := ⟨by decide, by decide, by decide, by decide⟩
  have stored : ∀ {t : DateTime} {text : String}, t.Sortable → Format.timestampText none t.toUtc = text.toList →
      session.encode (.dateTime t) (some openedAt) none = .ok (.string text) := by
    intro t text sortable shown
    have encoded := @encode_timestamp session openedAt t stores (fun _ => rfl) sortable.universal
    change session.encode (.dateTime t) (some openedAt) none =
      .ok (.string (String.ofList (Format.timestampText none t.toUtc))) at encoded
    rw [encoded, shown, String.ofList_toList]
  have first := @stored _ "2016-12-31T23:59:60.5000000Z" leapSecond (by decide +kernel)
  have second := @stored _ "2017-01-01T00:00:00.0010000Z" newYear (by decide +kernel)
  obtain ⟨x, y, shownFirst, shownSecond, sorted, -⟩ :=
    @timestamps_sorted session _ _ _ stores (fun _ => rfl) leapSecond newYear
  obtain rfl := AttributeValue.string.inj (Except.ok.inj (shownFirst.symm.trans first))
  obtain rfl := AttributeValue.string.inj (Except.ok.inj (shownSecond.symm.trans second))
  exact ⟨first, second, sorted (.inl (by decide))⟩

end ItemExpr
