/-
The `Date:` header: how it is read, the instant that is stored of it, and the
pages of rows that load such instants again.
-/
import Localmail.Calendar
import Localmail.DateWalk
import Localmail.IntText
import Localmail.MailParser
import Localmail.UrlSplit

namespace Localmail

/-- `str.lower`, `str.upper` and `str.isdigit`. -/
structure DateRules where
  lower : Text → Text
  upper : Text → Text
  isDigit : CodePoint → Bool

/-! ### Reading the header -/

/-- `_daynames`. -/
def dayNames : List Text :=
  ["mon", "tue", "wed", "thu", "fri", "sat", "sun"].map text

/-- `_monthnames`. -/
def monthNames : List Text :=
  ["jan", "feb", "mar", "apr", "may", "jun", "jul", "aug", "sep", "oct",
    "nov", "dec", "january", "february", "march", "april", "may", "june",
    "july", "august", "september", "october", "november", "december"].map text

/-- `_timezones`. -/
def timezones : List (Text × Int) :=
  [("UT", 0), ("UTC", 0), ("GMT", 0), ("Z", 0), ("AST", -400), ("ADT", -300),
    ("EST", -500), ("EDT", -400), ("CST", -600), ("CDT", -500),
    ("MST", -700), ("MDT", -600), ("PST", -800), ("PDT", -700)].map
      fun zone => (text zone.1, zone.2)

def endsInComma (value : Text) : Bool :=
  value.getLast? = some (.scalar ',')

def dropComma (value : Text) : Text :=
  if endsInComma value then value.dropLast else value

/-- The words without the name of a day. -/
def skipDayName (rules : DateRules) : List Text → List Text
  | [] => []
  | first :: rest =>
      if endsInComma first || rules.lower first ∈ dayNames then rest
      else afterLast ',' first :: rest

/-- `12-Jul-23` is three words. -/
def splitDashes : List Text → List Text
  | [first, second, third] =>
      let stuff := first.splitOn (.scalar '-')
      if stuff.length = 3 then stuff ++ [second, third]
      else [first, second, third]
  | data => data

/-- The offset may stand right after the time, or be missing. -/
def splitOffset : List Text → List Text
  | [first, second, third, last] =>
      let mark := if .scalar '+' ∈ last then '+' else '-'
      if .scalar mark ∈ last ∧ before mark last ≠ [] then
        [first, second, third, before mark last,
          last.drop (before mark last).length]
      else [first, second, third, last, []]
  | data => data

/-- The day and the number of the month, which may stand in either order. -/
def readMonth (rules : DateRules) (dd mm : Text) : Option (Text × Nat) := do
  let mm := rules.lower mm
  let (dd, mm) :=
    if mm ∈ monthNames then (dd, mm) else (mm, rules.lower dd)
  let index ← monthNames.idxOf? mm
  let month := index + 1
  some (dropComma dd, if 12 < month then month - 12 else month)

/-- The year, the time and the offset, which may stand in other places. -/
def readYear (rules : DateRules) (yy tm tz : Text) :
    Option (Text × Text × Text) :=
  let (yy, tm) :=
    if .scalar ':' ∈ yy ∧ before ':' yy ≠ [] then (tm, yy) else (yy, tm)
  let yy := dropComma yy
  if yy = [] then none
  else
    let (yy, tz) :=
      if yy.head?.any rules.isDigit then (yy, tz) else (tz, yy)
    some (yy, dropComma tm, tz)

/-- Hours, minutes and seconds. -/
def splitTime (tm : Text) : Option (Text × Text × Text) :=
  match tm.splitOn (.scalar ':') with
  | [thh, tmm] => some (thh, tmm, text "0")
  | [thh, tmm, tss] => some (thh, tmm, tss)
  | [_] =>
      match tm.splitOn (.scalar '.') with
      | [thh, tmm] => some (thh, tmm, text "0")
      | [thh, tmm, tss] => some (thh, tmm, tss)
      | _ => none
  | _ => none

/-- A year of two digits. -/
def expandYear (yy : Int) : Int :=
  if yy < 100 then if 68 < yy then yy + 1900 else yy + 2000 else yy

/-- Hours and minutes in decimal digits as seconds. -/
def offsetSeconds (tzoffset : Int) : Int :=
  tzoffset.sign * (tzoffset.natAbs / 100 * 3600 + tzoffset.natAbs % 100 * 60)

/-- The offset in seconds; `none` when it is unknown. -/
def readOffset (rules : DateRules) (tz : Text) : Option Int :=
  let tz := rules.upper tz
  match timezones.lookup tz with
  | some tzoffset => some (offsetSeconds tzoffset)
  | none =>
      match intOfText tz with
      | none => none
      | some tzoffset =>
          if tzoffset = 0 ∧ tz.head? = some (.scalar '-') then none
          else some (offsetSeconds tzoffset)

structure DateFields where
  year : Int
  month : Nat
  day : Int
  hour : Int
  minute : Int
  second : Int
  offset : Option Int
deriving Repr, DecidableEq

/-- `_parsedate_tz`. -/
def parsedateTz (rules : DateRules) (raw : Text) : Option DateFields :=
  match (splitOffset (splitDashes (skipDayName rules (splitWords raw)))).take 5
  with
  | [dd, mm, yy, tm, tz] =>
      if dd = [] ∨ mm = [] ∨ yy = [] then none
      else do
        let (dd, month) ← readMonth rules dd mm
        let (yy, tm, tz) ← readYear rules yy tm tz
        let (thh, tmm, tss) ← splitTime tm
        let year ← intOfText yy
        let day ← intOfText dd
        let hour ← intOfText thh
        let minute ← intOfText tmm
        let second ← intOfText tss
        some
          { year := expandYear year
            month := month
            day := day
            hour := hour
            minute := minute
            second := second
            offset := readOffset rules tz }
  | _ => none

/-- `datetime.datetime`; `none` is the `ValueError` or `OverflowError`. -/
def localTime (fields : DateFields) : Option LocalTime :=
  if h : 1 ≤ fields.year ∧ fields.year ≤ 9999 ∧
      1 ≤ fields.month ∧ fields.month ≤ 12 ∧
      1 ≤ fields.day ∧
      fields.day ≤ daysInMonth fields.year.toNat fields.month ∧
      0 ≤ fields.hour ∧ fields.hour < 24 ∧
      0 ≤ fields.minute ∧ fields.minute < 60 ∧
      0 ≤ fields.second ∧ fields.second < 60 then
    some
      { date :=
          { year := fields.year.toNat
            month := fields.month
            day := fields.day.toNat
            yearRange := by omega
            monthRange := by omega
            dayRange := by omega }
        hour := fields.hour.toNat
        minute := fields.minute.toNat
        second := fields.second.toNat
        hourRange := by omega
        minuteRange := by omega
        secondRange := by omega }
  else none

/-- An offset of `datetime.timezone`: less than a day. -/
def IsOffset (offset : Int) : Prop :=
  -86400 < offset ∧ offset < 86400

instance (offset : Int) : Decidable (IsOffset offset) :=
  inferInstanceAs (Decidable (_ ∧ _))

/-- A `datetime`, naive when it has no offset. -/
structure HeaderDate where
  time : LocalTime
  offset : Option Int
  offsetRange : ∀ seconds ∈ offset, IsOffset seconds

/-- `parsedate_to_datetime`; `none` is one of the errors that are caught. -/
def parsedateToDatetime (rules : DateRules) (raw : Text) : Option HeaderDate := do
  let fields ← parsedateTz rules raw
  let time ← localTime fields
  if h : ∀ seconds ∈ fields.offset, IsOffset seconds then
    some ⟨time, fields.offset, h⟩
  else none

/-- `parse_date_header`. -/
def parseDateHeader (rules : DateRules) (raw : Option Text) :
    Option HeaderDate :=
  match raw with
  | none | some [] => none
  | some raw => parsedateToDatetime rules raw

/-- A `datetime` with its offset. -/
structure AwareTime where
  time : LocalTime
  offset : Int
  offsetRange : IsOffset offset

theorem HeaderDate.isOffset_getD (date : HeaderDate) :
    IsOffset (date.offset.getD 0) := by
  have hrange := date.offsetRange
  cases hoffset : date.offset with
  | none => exact (by decide : IsOffset 0)
  | some offset => exact hrange offset hoffset

/-- `date_sent_instant`; a date without an offset is read as UTC. -/
def dateSentInstant (rules : DateRules) (raw : Option Text) : Option AwareTime :=
  (parseDateHeader rules raw).map fun date =>
    { time := date.time
      offset := date.offset.getD 0
      offsetRange := date.isOffset_getD }

/-- The instant in UTC, in seconds since the beginning of year 1. -/
def AwareTime.utc (date : AwareTime) : Int :=
  date.time.seconds - date.offset

/-! ### Rows and pages -/

/-- A mail as it is given to `upsert_message`. -/
structure DatedMail (γ : Type) where
  id : Nat
  internalDate : Option Int
  date : Option Text
  header : γ

/-- The row that `upsert_message` writes. -/
def DatedMail.row {γ : Type} (rules : DateRules) (mail : DatedMail γ) :
    DatedRow γ :=
  ⟨mail.id, mail.internalDate,
    (dateSentInstant rules mail.date).map AwareTime.utc, mail.header⟩

/-- How `psycopg` loads a `timestamptz`; `none` is the `DataError`. -/
def loadTimestamptz (column : Option Int) : Option (Option Int) :=
  match column with
  | none => some none
  | some instant => if InCalendar instant then some (some instant) else none

/-- A row of a query that projects both dates. -/
def loadRow {γ : Type} (row : DatedRow γ) : Option (DatedRow γ) := do
  let internalDate ← loadTimestamptz row.internalDate
  let dateSent ← loadTimestamptz row.dateSent
  some ⟨row.id, internalDate, dateSent, row.header⟩

/-- The rows of a page; one that does not load fails the page. -/
def loadPage {γ : Type} (page : List (DatedRow γ)) :
    Option (List (DatedRow γ)) :=
  page.mapM loadRow

/-! ### What the header may say -/

/-- The time is one of a day. -/
def DateFields.IsTime (fields : DateFields) : Prop :=
  (0 ≤ fields.hour ∧ fields.hour < 24) ∧
    (0 ≤ fields.minute ∧ fields.minute < 60) ∧
    (0 ≤ fields.second ∧ fields.second < 60)

/-- The seconds since midnight. -/
def DateFields.timeOfDay (fields : DateFields) : Int :=
  fields.hour * 3600 + fields.minute * 60 + fields.second

/-- On 1 January of year 1, nearer to its midnight than the offset is ahead of
UTC; or on 31 December 9999, no further from the next one than the offset is
behind it. -/
def DateFields.LeavesCalendar (fields : DateFields) (offset : Int) : Prop :=
  (fields.year = 1 ∧ fields.month = 1 ∧ fields.day = 1) ∧
      fields.timeOfDay < offset ∨
    (fields.year = 9999 ∧ fields.month = 12 ∧ fields.day = 31) ∧
      86400 ≤ fields.timeOfDay - offset

/-- The fields of the header do not leave the calendar, where the time is one of
a day and the offset less than one. -/
def DateFits (rules : DateRules) (raw : Option Text) : Prop :=
  ∀ header ∈ raw, ∀ fields ∈ parsedateTz rules header, fields.IsTime →
    ∀ offset ∈ fields.offset, IsOffset offset → ¬ fields.LeavesCalendar offset

/-! ### Loading what was stored -/

/-- What the fields say of a local time that is made of them. -/
theorem localTime_eq_some {fields : DateFields} {time : LocalTime}
    (htime : localTime fields = some time) :
    fields.year = time.date.year ∧ fields.month = time.date.month ∧
      fields.day = time.date.day ∧ fields.timeOfDay = time.timeOfDay ∧
      fields.IsTime := by
  unfold localTime at htime
  split at htime
  · rename_i hfields
    cases htime
    simp only [DateFields.timeOfDay, LocalTime.timeOfDay, DateFields.IsTime,
      true_and]
    omega
  · cases htime

/-- The first and the last day of the calendar are days. -/
theorem exists_localTime {fields : DateFields} (htime : fields.IsTime)
    {offset : Int} (hleaves : fields.LeavesCalendar offset) :
    ∃ time, localTime fields = some time := by
  obtain ⟨⟨hhour, hhour'⟩, ⟨hminute, hminute'⟩, hsecond, hsecond'⟩ := htime
  rcases hleaves with ⟨⟨hyear, hmonth, hday⟩, -⟩ | ⟨⟨hyear, hmonth, hday⟩, -⟩
  · have hmonths : daysInMonth fields.year.toNat fields.month = 31 := by
      rw [hyear, hmonth]
      rfl
    exact ⟨_, dif_pos (by omega)⟩
  · have hmonths : daysInMonth fields.year.toNat fields.month = 31 := by
      rw [hyear, hmonth]
      rfl
    exact ⟨_, dif_pos (by omega)⟩

/-- The instant of a local time is in the calendar just when the fields it was
made of do not leave it. -/
theorem inCalendar_iff_not_leaves {fields : DateFields} {time : LocalTime}
    (htime : localTime fields = some time) {offset : Int}
    (hoffset : IsOffset offset) :
    InCalendar (time.seconds - offset) ↔ ¬ fields.LeavesCalendar offset := by
  obtain ⟨hyear, hmonth, hday, hsame, -⟩ := localTime_eq_some htime
  rw [inCalendar_sub_iff time hoffset.1 hoffset.2, DateFields.LeavesCalendar,
    hyear, hmonth, hday, hsame, not_or]
  norm_cast

/-- A date that is read is in the calendar just when the fields of its header do
not leave it. -/
theorem parsedateToDatetime_inCalendar_iff (rules : DateRules) (raw : Text) :
    (∀ date ∈ parsedateToDatetime rules raw,
        InCalendar (date.time.seconds - date.offset.getD 0)) ↔
      ∀ fields ∈ parsedateTz rules raw, fields.IsTime →
        ∀ offset ∈ fields.offset, IsOffset offset →
          ¬ fields.LeavesCalendar offset := by
  rw [parsedateToDatetime]
  cases parsedateTz rules raw with
  | none => simp
  | some fields =>
      simp only [Option.bind_eq_bind, Option.bind_some, Option.mem_def,
        Option.some.injEq, forall_eq']
      cases hlocal : localTime fields with
      | none =>
          refine iff_of_true (by simp) fun htime offset _ _ hleaves => ?_
          obtain ⟨time, hsome⟩ := exists_localTime htime hleaves
          rw [hlocal] at hsome
          cases hsome
      | some time =>
          have htime := (localTime_eq_some hlocal).2.2.2.2
          simp only [Option.bind_some]
          split
          · rename_i hrange
            simp only [Option.some.injEq, forall_eq', htime, forall_const]
            cases hoffset : fields.offset with
            | none =>
                refine iff_of_true ?_ (by simp)
                have hseconds := seconds_lt time
                rw [Option.getD_none, InCalendar]
                omega
            | some offset =>
                have hoffset := hrange offset hoffset
                simp only [Option.getD_some, Option.some.injEq, forall_eq',
                  hoffset, forall_const]
                exact inCalendar_iff_not_leaves hlocal hoffset
          · rename_i hrange
            refine iff_of_true (by simp) fun _ offset hoffset hless => ?_
            refine absurd ?_ hrange
            intro seconds hseconds
            rw [hoffset] at hseconds
            cases hseconds
            exact hless

/-- The stored instant is in the calendar just when the header fits. -/
theorem dateSentInstant_inCalendar_iff (rules : DateRules) (raw : Option Text) :
    (∀ date, dateSentInstant rules raw = some date → InCalendar date.utc) ↔
      DateFits rules raw := by
  have hinstant : (∀ date, dateSentInstant rules raw = some date →
        InCalendar date.utc) ↔
      ∀ date ∈ parseDateHeader rules raw,
        InCalendar (date.time.seconds - date.offset.getD 0) := by
    simp only [dateSentInstant, AwareTime.utc, Option.map_eq_some_iff,
      forall_exists_index, and_imp, forall_apply_eq_imp_iff₂, Option.mem_def]
  rw [hinstant, DateFits]
  cases raw with
  | none => exact iff_of_true nofun nofun
  | some header =>
      simp only [Option.mem_def (b := some header), Option.some.injEq, forall_eq']
      cases header with
      | nil =>
          have hnone : parsedateTz rules [] = none := rfl
          rw [hnone]
          exact iff_of_true nofun nofun
      | cons first rest => exact parsedateToDatetime_inCalendar_iff rules _

theorem loadTimestamptz_isSome_iff (column : Option Int) :
    (loadTimestamptz column).isSome ↔ ∀ instant ∈ column, InCalendar instant := by
  cases column with
  | none => exact iff_of_true rfl nofun
  | some instant =>
      rw [loadTimestamptz]
      by_cases hinstant : InCalendar instant
      · simp [hinstant]
      · simp [hinstant]

theorem loadRow_isSome_iff {γ : Type} (row : DatedRow γ) :
    (loadRow row).isSome ↔
      (∀ instant ∈ row.internalDate, InCalendar instant) ∧
        ∀ instant ∈ row.dateSent, InCalendar instant := by
  rw [← loadTimestamptz_isSome_iff, ← loadTimestamptz_isSome_iff, loadRow]
  cases loadTimestamptz row.internalDate with
  | none => simp
  | some internalDate =>
      cases loadTimestamptz row.dateSent with
      | none => simp
      | some dateSent => simp

theorem loadPage_isSome_iff {γ : Type} (page : List (DatedRow γ)) :
    (loadPage page).isSome ↔ ∀ row ∈ page, (loadRow row).isSome :=
  mapM_isSome_iff

theorem loadRow_written_iff {γ : Type} (rules : DateRules) (mail : DatedMail γ) :
    (loadRow (mail.row rules)).isSome ↔
      (∀ instant ∈ mail.internalDate, InCalendar instant) ∧
        DateFits rules mail.date := by
  rw [loadRow_isSome_iff, ← dateSentInstant_inCalendar_iff]
  simp [DatedMail.row]

/-- The stored instant of a header is in the calendar just when the header fits;
and a page of rows that were written loads just when each of its headers fits,
as long as the other date does. -/
theorem stored_dates_load_iff (rules : DateRules) :
    (∀ raw, (∀ date, dateSentInstant rules raw = some date →
        InCalendar date.utc) ↔ DateFits rules raw) ∧
    ∀ {γ : Type} (page : List (DatedMail γ)),
      (loadPage (page.map (DatedMail.row rules))).isSome ↔
        ∀ mail ∈ page, (∀ instant ∈ mail.internalDate, InCalendar instant) ∧
          DateFits rules mail.date := by
  refine ⟨dateSentInstant_inCalendar_iff rules, fun page => ?_⟩
  rw [loadPage_isSome_iff, List.forall_mem_map]
  apply forall₂_congr
  intro mail _
  exact loadRow_written_iff rules mail

namespace DateWitness

/-- As the standard library for ASCII. -/
def dateRules : DateRules where
  lower := lowerAscii
  upper := fun value => value.map fun
    | .scalar char => .scalar char.toUpper
    | char => char
  isDigit := CodePoint.isAsciiDigit

def lastHour : Text := text "Fri, 31 Dec 9999 23:59:59 -0100"

/-- The year stands after the offset here, and 2000 is added to it. -/
def firstHour : Text := text "1 Jan +0100 00:30:00 -1999"

end DateWitness

open DateWitness in
/-- The last hour of 9999 behind UTC is in year 10000, and no page with it
loads. -/
theorem last_hour_not_loaded :
    (dateSentInstant dateRules (some lastHour)).map AwareTime.utc =
        some ((calendarEnd : Int) + 3599) ∧
      ¬InCalendar ((calendarEnd : Int) + 3599) ∧
      loadPage ([⟨1, none, some lastHour, ()⟩, ⟨2, none, none, ()⟩].map
        (DatedMail.row dateRules)) = none := by
  decide +kernel

open DateWitness in
example : (dateSentInstant dateRules (some firstHour)).map AwareTime.utc =
    some (-1800) := by
  decide +kernel

end Localmail
