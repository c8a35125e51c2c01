import Mathlib.Data.Char
import Mathlib.Tactic.Ring
import YukhCoordination.Relay.Lifecycle.Text

/-!
# The times a layout can carry

The text that `formatTime` writes for a time of the years 0 to 9999 is the one `parseTime` reads as
that time (`parseTime_formatTime`). Outside these years `Format` writes a sign or a fifth digit,
which `time.Parse` refuses (`yearOf_of_parseTime`). Such texts are in the order of their times
(`formatTime_lt`), so that valid times may be compared as strings.
-/

namespace YukhCoordination.Relay.Lifecycle

/-! ## Digits -/

variable {cs : List Char} {c : Char} {q doy t : Int} {value : String}

theorem digits_eq (h : cs.all isDigit) : digits cs = some (Nat.ofDigitChars 10 cs 0) := by
  have hfold (n : Nat) : cs.foldl (fun acc c => acc.bind fun n =>
      if isDigit c then some (n * 10 + (c.toNat - '0'.toNat)) else none) (some n) =
        some (Nat.ofDigitChars 10 cs n) := by
    induction cs generalizing n with
    | nil => rfl
    | cons c cs ih =>
      rw [List.all_cons, Bool.and_eq_true] at h
      rw [List.foldl_cons, Option.bind_some, if_pos h.1, ih h.2, Nat.ofDigitChars_cons,
        Nat.mul_comm]
  exact hfold 0

theorem isDigit_of_isDigit (h : c.isDigit) : isDigit c := by
  simp only [Char.isDigit, Bool.and_eq_true, decide_eq_true_eq] at h
  simp only [isDigit, Bool.and_eq_true, decide_eq_true_eq]
  exact ⟨h.1, h.2⟩

theorem isDigit_of_mem_toDigits {n : Nat} (h : c ∈ Nat.toDigits 10 n) : isDigit c :=
  isDigit_of_isDigit (Nat.isDigit_of_mem_toDigits (by decide) le_rfl h)

theorem digits_toString (n : Nat) : digits (toString n).toList = some n := by
  rw [Nat.toString_eq_repr, Nat.toList_repr, digits_eq, Nat.ofDigitChars_ten_toDigits]
  exact List.all_eq_true.2 fun c hc => isDigit_of_mem_toDigits hc

theorem toList_pad (width n : Nat) : (pad width n).toList =
    List.replicate (width - (Nat.toDigits 10 n).length) '0' ++ Nat.toDigits 10 n := by
  simp [pad, Int.not_lt.2 (Int.natCast_nonneg n)]

theorem isDigit_pad {width n : Nat} : ∀ c ∈ (pad width n).toList, isDigit c := by
  rw [toList_pad]
  intro c hc
  rcases List.mem_append.1 hc with hc | hc
  · obtain ⟨-, rfl⟩ := List.mem_replicate.1 hc
    decide
  · exact isDigit_of_mem_toDigits hc

theorem digits_pad {width n : Nat} : digits (pad width n).toList = some n := by
  rw [digits_eq (List.all_eq_true.2 fun c hc => isDigit_pad c hc), toList_pad]
  simp [Nat.ofDigitChars_append]

section
variable {width n : Nat} (hwidth : 0 < width) (hlt : n < 10 ^ width)
include hwidth hlt

theorem length_pad : (pad width n).toList.length = width := by
  have hlen := (Nat.length_toDigits_le_iff (by decide) hwidth).2 hlt
  rw [toList_pad, List.length_append, List.length_replicate]
  omega

theorem takeDigits_pad (rest : List Char) :
    takeDigits width ((pad width n).toList ++ rest) = some (n, rest) := by
  have hlen := length_pad hwidth hlt
  rw [takeDigits, if_neg (by simp [hlen]), List.take_left' hlen, List.drop_left' hlen, digits_pad]
  rfl

end

/-- The two digits of an hour. -/
theorem takeHour_pad {n : Nat} (hlt : n < 10 ^ 2) (rest : List Char) :
    takeHour ((pad 2 n).toList ++ rest) = some (n, rest) := by
  rw [takeHour, takeDigits_pad (by decide) hlt]

/-- The three digits of the milliseconds. -/
theorem takeMillis_pad {n : Nat} (hlt : n < 10 ^ 3) (rest : List Char) :
    takeMillis ('.' :: ((pad 3 n).toList ++ rest)) = some (n, rest) := by
  have hlen := length_pad (by decide) hlt
  have hdigits : digits (pad 3 n).toList = some n := digits_pad
  have hall : ∀ c ∈ (pad 3 n).toList, isDigit c = true := isDigit_pad
  match (pad 3 n).toList, hlen, hdigits, hall with
  | [a, b, c], _, hdigits, hall =>
    have hplus : a ≠ '+' := by
      rintro rfl
      exact absurd (hall '+' (by simp)) (by decide)
    have hminus : a ≠ '-' := by
      rintro rfl
      exact absurd (hall '-' (by simp)) (by decide)
    simp [takeMillis, hplus, hminus, hdigits]

/-! ## The calendar -/

/-- A day of an era of 400 years, in centuries, years of a leap cycle, years and days. -/
theorem exists_dayOfEra {doe : Int} (h0 : 0 ≤ doe) (h1 : doe < 146097) : ∃ c q y doy : Int,
    0 ≤ c ∧ c ≤ 3 ∧ 0 ≤ q ∧ q ≤ 24 ∧ 0 ≤ y ∧ y ≤ 3 ∧ 0 ≤ doy ∧ doy ≤ 365 ∧
    (doy = 365 → y = 3 ∧ (q < 24 ∨ c = 3)) ∧ doe = 36524 * c + 1461 * q + 365 * y + doy := by
  obtain ⟨c, r, hc0, hc3, hr0, hr, rfl⟩ : ∃ c r : Int, 0 ≤ c ∧ c ≤ 3 ∧ 0 ≤ r ∧
      (r < 36524 ∨ c = 3 ∧ r = 36524) ∧ doe = 36524 * c + r := by
    by_cases hlast : doe = 146096
    · exact ⟨3, 36524, by omega⟩
    · exact ⟨doe / 36524, doe % 36524, by omega⟩
  obtain ⟨q, s, hq0, hq24, hs0, hs, hqs, rfl⟩ : ∃ q s : Int, 0 ≤ q ∧ q ≤ 24 ∧ 0 ≤ s ∧ s ≤ 1460 ∧
      (s = 1460 → q < 24 ∨ c = 3) ∧ r = 1461 * q + s :=
    ⟨r / 1461, r % 1461, by omega⟩
  by_cases hlast : s = 1460
  · exact ⟨c, q, 3, 365, by omega⟩
  · exact ⟨c, q, s / 365, s % 365, by omega⟩

/-- The year of the era of a day of the era. -/
theorem yearOfEra_eq {c y doe : Int} (hc0 : 0 ≤ c) (hc3 : c ≤ 3) (hq0 : 0 ≤ q) (hq24 : q ≤ 24)
    (hy0 : 0 ≤ y) (hy3 : y ≤ 3) (hd0 : 0 ≤ doy) (hd : doy ≤ 365)
    (hleap : doy = 365 → y = 3 ∧ (q < 24 ∨ c = 3))
    (hdoe : doe = 36524 * c + 1461 * q + 365 * y + doy) :
    (doe - doe / 1460 + doe / 36524 - doe / 146096) / 365 = 100 * c + 4 * q + y := by
  have hcycle : doe / 1460 = 25 * c + q ∨ doe / 1460 = 25 * c + q + 1 ∧ y = 3 ∧ 1 ≤ doy := by
    omega
  have hcentury : doe / 36524 - doe / 146096 = c := by
    by_cases hlast : doe = 146096
    · obtain rfl : c = 3 := by omega
      rw [hlast]
      rfl
    · have hzero : doe / 146096 = 0 := by omega
      have hfloor : doe / 36524 = c := by omega
      omega
  omega

/-- The first day of a year of the era. -/
theorem startOfYear_eq {c y : Int} (hq0 : 0 ≤ q) (hq24 : q ≤ 24) (hy0 : 0 ≤ y) (hy3 : y ≤ 3) :
    365 * (100 * c + 4 * q + y) + (100 * c + 4 * q + y) / 4 - (100 * c + 4 * q + y) / 100 =
      36524 * c + 1461 * q + 365 * y := by
  have hfour : (100 * c + 4 * q + y) / 4 = 25 * c + q := by omega
  have hhundred : (100 * c + 4 * q + y) / 100 = c := by omega
  omega

/-- The last day of a year that starts in March is the leap day of the next. -/
theorem leap_of_last {c yoe : Int} (hq0 : 0 ≤ q) (hq24 : q ≤ 24) (hq : q < 24 ∨ c = 3)
    (hyoe : yoe = 100 * c + 4 * q + 3) : yoe % 4 = 3 ∧ (yoe % 100 ≠ 99 ∨ yoe = 399) := by
  omega

/-- A day in eras of 400 years. -/
theorem exists_era (z : Int) : 0 ≤ z - z / 146097 * 146097 ∧ z - z / 146097 * 146097 < 146097 := by
  omega

/-- What `civilFromDays` computes: a day is the day `doy` of the year `yoe` of an era, and both
start in March. -/
structure Civil (n era yoe doy : Int) : Prop where
  year : 0 ≤ yoe ∧ yoe < 400
  day : 0 ≤ doy ∧ doy ≤ 365
  leap : doy = 365 → yoe % 4 = 3 ∧ (yoe % 100 ≠ 99 ∨ yoe = 399)
  days : n = era * 146097 + (365 * yoe + yoe / 4 - yoe / 100 + doy) - 719468
  civil : civilFromDays n =
    let m := (5 * doy + 2) / 153
    let month := if m < 10 then m + 3 else m - 9
    (yoe + era * 400 + (if month ≤ 2 then 1 else 0), month, doy - (153 * m + 2) / 5 + 1)

theorem exists_civil (days : Int) : ∃ era yoe doy, Civil days era yoe doy := by
  obtain ⟨hlow, hhigh⟩ := exists_era (days + 719468)
  generalize hera : (days + 719468) / 146097 = era at hlow hhigh
  generalize hdoe : days + 719468 - era * 146097 = doe at hlow hhigh
  obtain ⟨c, q, y, doy, hc0, hc3, hq0, hq24, hy0, hy3, hd0, hd, hleap, heq⟩ :=
    exists_dayOfEra hlow hhigh
  have hyoe := yearOfEra_eq hc0 hc3 hq0 hq24 hy0 hy3 hd0 hd hleap heq
  have hstart := startOfYear_eq (c := c) hq0 hq24 hy0 hy3
  refine ⟨era, 100 * c + 4 * q + y, doy, ?_, ⟨hd0, hd⟩, ?_, ?_, ?_⟩
  · clear hera hyoe hstart
    omega
  · intro h
    obtain ⟨rfl, hq⟩ := hleap h
    exact leap_of_last hq0 hq24 hq rfl
  · rw [hstart]
    clear hera hyoe hstart hleap
    omega
  · simp only [civilFromDays, hera, hdoe, hyoe, hstart]
    rw [heq, add_sub_cancel_left]

theorem daysFromCivil_civilFromDays (days : Int) :
    daysFromCivil (civilFromDays days).1 (civilFromDays days).2.1 (civilFromDays days).2.2 =
      days := by
  obtain ⟨era, yoe, doy, h⟩ := exists_civil days
  obtain ⟨hd0, hd⟩ := h.day
  rw [h.civil]
  simp only [daysFromCivil]
  generalize hm : (5 * doy + 2) / 153 = m
  have hmonth : (if (if m < 10 then m + 3 else m - 9) > 2 then (if m < 10 then m + 3 else m - 9) - 3
      else (if m < 10 then m + 3 else m - 9) + 9) = m := by
    have hm' : 0 ≤ m ∧ m ≤ 11 := by omega
    split <;> split <;> omega
  rw [hmonth]
  generalize (if m < 10 then m + 3 else m - 9) = month
  have hyear : (if month ≤ 2 then yoe + era * 400 + (if month ≤ 2 then 1 else 0) - 1
      else yoe + era * 400 + (if month ≤ 2 then 1 else 0)) = yoe + era * 400 := by
    split <;> omega
  have hera : (yoe + era * 400) / 400 = era := by
    have := h.year
    omega
  rw [hyear, hera, add_sub_cancel_right, h.days]
  ring

/-- The day of a month that starts on the day `(153 * m + 2) / 5` of the year. -/
theorem dayOfMonth_le {m : Int} (hd0 : 0 ≤ doy) (hd : doy ≤ 365) (hm : m = (5 * doy + 2) / 153) :
    0 ≤ m ∧ m ≤ 11 ∧ 1 ≤ doy - (153 * m + 2) / 5 + 1 ∧ doy - (153 * m + 2) / 5 + 1 ≤ 31 ∧
      (m = 1 ∨ m = 3 ∨ m = 6 ∨ m = 8 → doy - (153 * m + 2) / 5 + 1 ≤ 30) ∧
      (m = 11 → doy - (153 * m + 2) / 5 + 1 = doy - 336) := by
  have hm' : m = 0 ∨ m = 1 ∨ m = 2 ∨ m = 3 ∨ m = 4 ∨ m = 5 ∨ m = 6 ∨ m = 7 ∨ m = 8 ∨ m = 9 ∨
      m = 10 ∨ m = 11 := by omega
  rcases hm' with rfl | rfl | rfl | rfl | rfl | rfl | rfl | rfl | rfl | rfl | rfl | rfl <;> omega

/-- The date of a day is one that the calendar has. -/
theorem civilFromDays_valid {days : Int} (hpos : 0 ≤ (civilFromDays days).1) :
    ∃ year month day : Nat, civilFromDays days = (↑year, ↑month, ↑day) ∧ 1 ≤ month ∧ month ≤ 12 ∧
      1 ≤ day ∧ day ≤ daysIn month year := by
  obtain ⟨era, yoe, doy, h⟩ := exists_civil days
  obtain ⟨hd0, hd⟩ := h.day
  obtain ⟨hm0, hm11, hday1, hday31, hday30, hfeb⟩ := dayOfMonth_le hd0 hd rfl
  have hleap := h.leap
  have hyear := h.year
  rw [h.civil] at hpos ⊢
  clear h
  simp only at hpos ⊢
  generalize (5 * doy + 2) / 153 = m at hm0 hm11 hday1 hday31 hday30 hfeb hpos ⊢
  generalize doy - (153 * m + 2) / 5 + 1 = day at hday1 hday31 hday30 hfeb ⊢
  generalize hmonth : (if m < 10 then m + 3 else m - 9) = month at hpos ⊢
  have hmonth' : 1 ≤ month ∧ month ≤ 12 ∧ (month = m + 3 ∨ month = m - 9) := by
    rw [← hmonth]
    split <;> omega
  generalize hyr : yoe + era * 400 + (if month ≤ 2 then 1 else 0) = year at hpos ⊢
  obtain ⟨year, rfl⟩ := Int.eq_ofNat_of_zero_le hpos
  obtain ⟨month, rfl⟩ := Int.eq_ofNat_of_zero_le (show 0 ≤ month by omega)
  obtain ⟨day, rfl⟩ := Int.eq_ofNat_of_zero_le (show 0 ≤ day by omega)
  refine ⟨year, month, day, rfl, by omega, by omega, by omega, ?_⟩
  unfold daysIn
  split
  · next hmonth2 =>
    have hday := hfeb (by omega)
    rw [if_pos (by omega)] at hyr
    split
    · omega
    · next hcommon =>
      -- The last day of a year that is followed by no leap year is day 364.
      have hlast : doy ≠ 365 := by
        intro hdoy
        obtain ⟨hfour, hhundred⟩ := hleap hdoy
        clear hleap hday30 hfeb hmonth
        omega
      omega
  · split <;> omega

/-! ## The layout -/

/-- The year of a time. -/
def yearOf (t : Int) : Int := (civilFromDays (t / 86400000)).1

theorem skip_cons (c : Char) (cs : List Char) : skip c (c :: cs) = some cs := if_pos rfl

/-- One step of a parser. -/
theorem bind_of_eq {α β : Type} {x : Option α} {f : α → Option β} {a : α} {r : Option β}
    (hx : x = some a) (hf : f a = r) : (x >>= f) = r := by
  rw [hx]
  exact hf

section
variable {year month day hour minute sec millis : Nat}

/-- The text of a date and a time of day. -/
def layout (year month day hour minute sec millis : Nat) : List Char :=
  (pad 4 year).toList ++ '-' :: ((pad 2 month).toList ++ '-' :: ((pad 2 day).toList ++ 'T' ::
    ((pad 2 hour).toList ++ ':' :: ((pad 2 minute).toList ++ ':' :: ((pad 2 sec).toList ++
      '.' :: ((pad 3 millis).toList ++ ['Z']))))))

theorem daysIn_le : daysIn month year ≤ 31 := by
  unfold daysIn
  split
  · split <;> omega
  · split <;> omega

theorem parseTime_layout
    (hvalue : value.toList = layout year month day hour minute sec millis) (hyear : year < 10 ^ 4)
    (hm1 : 1 ≤ month) (hm12 : month ≤ 12) (hd1 : 1 ≤ day) (hd : day ≤ daysIn month year)
    (hhour : hour < 24) (hminute : minute < 60) (hsec : sec < 60) (hmillis : millis < 10 ^ 3) :
    parseTime value = some (((daysFromCivil year month day * 24 + hour) * 60 + minute) * 60 * 1000 +
      sec * 1000 + millis) := by
  have hday : day < 10 ^ 2 := by
    have := @daysIn_le year month
    omega
  have hyears := takeDigits_pad (by decide) hyear
  have hmonths := takeDigits_pad (by decide) (show month < 10 ^ 2 by omega)
  have hdays := takeDigits_pad (by decide) hday
  have hhours := takeHour_pad (show hour < 10 ^ 2 by omega)
  have hminutes := takeDigits_pad (by decide) (show minute < 10 ^ 2 by omega)
  have hsecs := takeDigits_pad (by decide) (show sec < 10 ^ 2 by omega)
  have hmilliss := takeMillis_pad hmillis
  rw [parseTime, hvalue, layout]
  refine bind_of_eq (hyears _) ?_
  refine bind_of_eq (skip_cons '-' _) ?_
  refine bind_of_eq (hmonths _) ?_
  refine bind_of_eq (skip_cons '-' _) ?_
  refine bind_of_eq (hdays _) ?_
  refine bind_of_eq (skip_cons 'T' _) ?_
  refine bind_of_eq (hhours _) ?_
  refine bind_of_eq (skip_cons ':' _) ?_
  refine bind_of_eq (hminutes _) ?_
  refine bind_of_eq (skip_cons ':' _) ?_
  refine bind_of_eq (hsecs _) ?_
  refine bind_of_eq (hmilliss _) ?_
  refine bind_of_eq (skip_cons 'Z' _) ?_
  exact if_pos ⟨rfl, hm1, hm12, hd1, hd, hhour, hminute, hsec⟩

end

theorem toList_formatTime {year month day inDay : Nat}
    (hcivil : civilFromDays (t / 86400000) = (↑year, ↑month, ↑day)) (hin : t % 86400000 = inDay) :
    (formatTime t).toList = layout year month day (inDay / 3600000) (inDay / 60000 % 60)
      (inDay / 1000 % 60) (inDay % 1000) := by
  have hhour : (inDay : Int) / 3600000 = ((inDay / 3600000 : Nat) : Int) := by omega
  have hminute : (inDay : Int) / 60000 % 60 = ((inDay / 60000 % 60 : Nat) : Int) := by omega
  have hsec : (inDay : Int) / 1000 % 60 = ((inDay / 1000 % 60 : Nat) : Int) := by omega
  have hmillis : (inDay : Int) % 1000 = ((inDay % 1000 : Nat) : Int) := by omega
  simp only [formatTime, hcivil, hin, hhour, hminute, hsec, hmillis, layout, String.toList_append,
    List.append_assoc, show "-".toList = ['-'] from rfl, show "T".toList = ['T'] from rfl,
    show ":".toList = [':'] from rfl, show ".".toList = ['.'] from rfl,
    show "Z".toList = ['Z'] from rfl, List.cons_append, List.nil_append]

/-- The parts of a time of the years 0 to 9999. -/
theorem exists_layout (hlow : 0 ≤ yearOf t) (hhigh : yearOf t ≤ 9999) :
    ∃ year month day inDay : Nat, civilFromDays (t / 86400000) = (↑year, ↑month, ↑day) ∧
      t % 86400000 = inDay ∧ inDay < 86400000 ∧ year < 10 ^ 4 ∧ 1 ≤ month ∧ month ≤ 12 ∧ 1 ≤ day ∧
      day ≤ daysIn month year := by
  obtain ⟨year, month, day, hcivil, hdate⟩ := civilFromDays_valid hlow
  obtain ⟨inDay, hin⟩ : ∃ inDay : Nat, t % 86400000 = inDay := Int.eq_ofNat_of_zero_le (by omega)
  have hyear : year < 10 ^ 4 := by
    rw [yearOf, hcivil] at hhigh
    simp only at hhigh
    omega
  exact ⟨year, month, day, inDay, hcivil, hin, by omega, hyear, hdate⟩

/-- **A formatted time is parsed back.** -/
theorem parseTime_formatTime (hlow : 0 ≤ yearOf t) (hhigh : yearOf t ≤ 9999) :
    parseTime (formatTime t) = some t := by
  obtain ⟨year, month, day, inDay, hcivil, hin, hlt, hyear, hm1, hm12, hd1, hd⟩ :=
    exists_layout hlow hhigh
  have hdays := daysFromCivil_civilFromDays (t / 86400000)
  rw [hcivil] at hdays
  rw [parseTime_layout (toList_formatTime hcivil hin) hyear hm1 hm12 hd1 hd (by omega) (by omega)
    (by omega) (by omega), hdays]
  congr 1
  omega

/-! ## The order of texts -/

theorem ofDigitChars_bounds (h : ∀ c ∈ cs, isDigit c) (n : Nat) :
    n * 10 ^ cs.length ≤ Nat.ofDigitChars 10 cs n ∧
      Nat.ofDigitChars 10 cs n < (n + 1) * 10 ^ cs.length := by
  induction cs generalizing n with
  | nil => simp
  | cons c cs ih =>
    rw [List.forall_mem_cons] at h
    have hc := h.1
    simp only [isDigit, Bool.and_eq_true, decide_eq_true_eq] at hc
    have hlow : '0'.toNat ≤ c.toNat := hc.1
    have hhigh : c.toNat ≤ '9'.toNat := hc.2
    obtain ⟨hle, hlt⟩ := ih h.2 (10 * n + (c.toNat - '0'.toNat))
    rw [Nat.ofDigitChars_cons, List.length_cons, Nat.pow_succ]
    have hdigit : c.toNat - '0'.toNat ≤ 9 := by
      have : '9'.toNat = '0'.toNat + 9 := rfl
      omega
    generalize c.toNat - '0'.toNat = d at hle hlt hdigit
    generalize 10 ^ cs.length = k at hle hlt
    constructor
    · refine le_trans ?_ hle
      rw [Nat.mul_comm k 10, ← Nat.mul_assoc, Nat.mul_comm n 10]
      exact Nat.mul_le_mul_right k (Nat.le_add_right _ _)
    · refine lt_of_lt_of_le hlt ?_
      rw [Nat.mul_comm k 10, ← Nat.mul_assoc]
      exact Nat.mul_le_mul_right k (by omega)

/-- Numbers of as many digits are in the order of their texts. -/
theorem lt_of_ofDigitChars_lt {ds : List Char} (hcs : ∀ c ∈ cs, isDigit c)
    (hds : ∀ d ∈ ds, isDigit d) (hlen : cs.length = ds.length) {n : Nat}
    (h : Nat.ofDigitChars 10 cs n < Nat.ofDigitChars 10 ds n) : cs < ds := by
  induction cs generalizing ds n with
  | nil =>
    obtain rfl := List.length_eq_zero_iff.1 hlen.symm
    exact absurd h (lt_irrefl _)
  | cons c cs ih =>
    cases ds with
    | nil => simp at hlen
    | cons d ds =>
      rw [List.forall_mem_cons] at hcs hds
      have hlen' : cs.length = ds.length := by simpa using hlen
      rw [Nat.ofDigitChars_cons, Nat.ofDigitChars_cons] at h
      rw [List.cons_lt_cons_iff]
      rcases lt_trichotomy c d with hlt | rfl | hgt
      · exact .inl hlt
      · exact .inr ⟨rfl, ih hcs.2 hds.2 hlen' h⟩
      · -- A greater first digit outweighs all that follows.
        have hc := ofDigitChars_bounds hcs.2 (10 * n + (c.toNat - '0'.toNat))
        have hd := ofDigitChars_bounds hds.2 (10 * n + (d.toNat - '0'.toNat))
        have hd0 := hds.1
        simp only [isDigit, Bool.and_eq_true, decide_eq_true_eq] at hd0
        have hlow : '0'.toNat ≤ d.toNat := hd0.1
        have hgt' : d.toNat < c.toNat := hgt
        rw [hlen'] at hc
        have hstep := Nat.mul_le_mul_right (10 ^ ds.length)
          (show 10 * n + (d.toNat - '0'.toNat) + 1 ≤ 10 * n + (c.toNat - '0'.toNat) by omega)
        omega

theorem append_lt_append {a b x y : List Char} (hlen : a.length = b.length) (h : a < b) :
    a ++ x < b ++ y := by
  induction a generalizing b with
  | nil =>
    obtain rfl := List.length_eq_zero_iff.1 hlen.symm
    exact absurd h (List.not_lt_nil _)
  | cons c a ih =>
    cases b with
    | nil => simp at hlen
    | cons d b =>
      rw [List.cons_append, List.cons_append, List.cons_lt_cons_iff]
      rcases List.cons_lt_cons_iff.1 h with hlt | ⟨rfl, hlt⟩
      · exact .inl hlt
      · exact .inr ⟨rfl, ih (by simpa using hlen) hlt⟩

/-- Fields of one width are compared before what follows them. -/
theorem pad_append_lt {width n m : Nat} {x y : List Char} (hwidth : 0 < width)
    (hn : n < 10 ^ width) (hm : m < 10 ^ width) (h : n < m ∨ n = m ∧ x < y) :
    (pad width n).toList ++ x < (pad width m).toList ++ y := by
  rcases h with h | ⟨rfl, h⟩
  · refine append_lt_append ((length_pad hwidth hn).trans (length_pad hwidth hm).symm)
      (lt_of_ofDigitChars_lt isDigit_pad isDigit_pad
        ((length_pad hwidth hn).trans (length_pad hwidth hm).symm) (n := 0) ?_)
    have hvalue (k : Nat) : Nat.ofDigitChars 10 (pad width k).toList 0 = k := by
      have := digits_eq (List.all_eq_true.2 (@isDigit_pad width k))
      rw [digits_pad] at this
      exact (Option.some.inj this).symm
    rw [hvalue, hvalue]
    exact h
  · exact List.append_left_lt h

/-- One date is before another. -/
def DateLt (a b : Int × Int × Int) : Prop :=
  a.1 < b.1 ∨ a.1 = b.1 ∧ (a.2.1 < b.2.1 ∨ a.2.1 = b.2.1 ∧ a.2.2 < b.2.2)

/-- An earlier day of the eras is in an earlier year that starts in March, or earlier in it. -/
theorem Civil.lt {n n' era yoe era' yoe' doy' : Int} (h : Civil n era yoe doy)
    (h' : Civil n' era' yoe' doy') (hlt : n < n') :
    yoe + era * 400 < yoe' + era' * 400 ∨ yoe + era * 400 = yoe' + era' * 400 ∧ doy < doy' := by
  obtain ⟨hy, hd, hleap, hn, -⟩ := h
  obtain ⟨hy', hd', hleap', hn', -⟩ := h'
  have hera : era ≤ era' := by
    by_contra hgt
    have : 365 * yoe + yoe / 4 - yoe / 100 + doy < 146097 := by omega
    have : 365 * yoe' + yoe' / 4 - yoe' / 100 + doy' < 146097 := by omega
    omega
  rcases eq_or_lt_of_le hera with rfl | hera
  · by_contra hnot
    have hle : yoe' ≤ yoe := by omega
    rcases eq_or_lt_of_le hle with rfl | hlt'
    · omega
    · have : 365 * yoe' + yoe' / 4 - yoe' / 100 + doy' < 365 * yoe + yoe / 4 - yoe / 100 := by
        omega
      omega
  · left
    omega

/-- Days are in the order of their dates. -/
theorem civilFromDays_lt {n n' : Int} (h : n < n') :
    DateLt (civilFromDays n) (civilFromDays n') := by
  obtain ⟨era, yoe, doy, hc⟩ := exists_civil n
  obtain ⟨era', yoe', doy', hc'⟩ := exists_civil n'
  have hlt := hc.lt hc' h
  obtain ⟨hd0, hd⟩ := hc.day
  obtain ⟨hd0', hd'⟩ := hc'.day
  rw [hc.civil, hc'.civil]
  generalize yoe + era * 400 = year at hlt
  generalize yoe' + era' * 400 = year' at hlt
  have hm0 : 0 ≤ (5 * doy + 2) / 153 ∧ (5 * doy + 2) / 153 ≤ 11 := by omega
  have hm0' : 0 ≤ (5 * doy' + 2) / 153 ∧ (5 * doy' + 2) / 153 ≤ 11 := by omega
  have hmonth : doy < doy' → (5 * doy + 2) / 153 < (5 * doy' + 2) / 153 ∨
      (5 * doy + 2) / 153 = (5 * doy' + 2) / 153 := by omega
  generalize hm : (5 * doy + 2) / 153 = m at hm0 hmonth
  generalize hm' : (5 * doy' + 2) / 153 = m' at hm0' hmonth
  simp only [DateLt]
  rcases hlt with hlt | ⟨rfl, hlt⟩
  · split <;> split <;> split <;> split <;> omega
  · rcases hmonth hlt with hlt' | rfl
    · split <;> split <;> split <;> split <;> omega
    · split <;> split <;> omega

section
variable {year month day hour minute sec millis year' month' day' hour' minute' sec' millis' : Nat}

/-- A layout is compared field by field. -/
theorem layout_lt (hyear : year < 10 ^ 4) (hyear' : year' < 10 ^ 4) (hmonth : month < 10 ^ 2)
    (hmonth' : month' < 10 ^ 2) (hday : day < 10 ^ 2) (hday' : day' < 10 ^ 2)
    (hhour : hour < 10 ^ 2) (hhour' : hour' < 10 ^ 2) (hminute : minute < 10 ^ 2)
    (hminute' : minute' < 10 ^ 2) (hsec : sec < 10 ^ 2) (hsec' : sec' < 10 ^ 2)
    (hmillis : millis < 10 ^ 3) (hmillis' : millis' < 10 ^ 3)
    (h : year < year' ∨ year = year' ∧ (month < month' ∨ month = month' ∧ (day < day' ∨
      day = day' ∧ (hour < hour' ∨ hour = hour' ∧ (minute < minute' ∨ minute = minute' ∧
        (sec < sec' ∨ sec = sec' ∧ millis < millis')))))) :
    layout year month day hour minute sec millis <
      layout year' month' day' hour' minute' sec' millis' := by
  have cons {c : Char} {x y : List Char} (h : x < y) : c :: x < c :: y :=
    List.cons_lt_cons_iff.2 (.inr ⟨rfl, h⟩)
  refine pad_append_lt (by decide) hyear hyear' (h.imp_right fun h => ⟨h.1, cons ?_⟩)
  refine pad_append_lt (by decide) hmonth hmonth' (h.2.imp_right fun h => ⟨h.1, cons ?_⟩)
  refine pad_append_lt (by decide) hday hday' (h.2.imp_right fun h => ⟨h.1, cons ?_⟩)
  refine pad_append_lt (by decide) hhour hhour' (h.2.imp_right fun h => ⟨h.1, cons ?_⟩)
  refine pad_append_lt (by decide) hminute hminute' (h.2.imp_right fun h => ⟨h.1, cons ?_⟩)
  refine pad_append_lt (by decide) hsec hsec' (h.2.imp_right fun h => ⟨h.1, cons ?_⟩)
  exact pad_append_lt (by decide) hmillis hmillis' (.inl h.2)

end

/-- **Times are in the order of their texts.** -/
theorem formatTime_lt {u : Int} (hlow : 0 ≤ yearOf t) (hhigh : yearOf t ≤ 9999)
    (hlow' : 0 ≤ yearOf u) (hhigh' : yearOf u ≤ 9999) (h : t < u) :
    formatTime t < formatTime u := by
  obtain ⟨year, month, day, inDay, hcivil, hin, hlt, hyear, -, hmonth, -, hday⟩ :=
    exists_layout hlow hhigh
  obtain ⟨year', month', day', inDay', hcivil', hin', hlt', hyear', -, hmonth', -, hday'⟩ :=
    exists_layout hlow' hhigh'
  replace hday := hday.trans daysIn_le
  replace hday' := hday'.trans daysIn_le
  change (formatTime t).toList < (formatTime u).toList
  rw [toList_formatTime hcivil hin, toList_formatTime hcivil' hin']
  refine layout_lt hyear hyear' (by omega) (by omega) (by omega) (by omega) (by omega) (by omega)
    (by omega) (by omega) (by omega) (by omega) (by omega) (by omega) ?_
  by_cases hdays : t / 86400000 = u / 86400000
  · rw [hdays, hcivil'] at hcivil
    simp only [Prod.mk.injEq, Nat.cast_inj] at hcivil
    obtain ⟨rfl, rfl, rfl⟩ := hcivil
    have hinDay : inDay < inDay' := by omega
    refine .inr ⟨rfl, .inr ⟨rfl, .inr ⟨rfl, ?_⟩⟩⟩
    clear hlow hhigh hlow' hhigh' hcivil' hin hin' hdays hyear hmonth hday hyear' hmonth' hday' h
    omega
  · have hdate := civilFromDays_lt (show t / 86400000 < u / 86400000 by omega)
    rw [hcivil, hcivil'] at hdate
    simp only [DateLt] at hdate
    omega

/-! ## The years a layout can carry -/

theorem digits_minus (cs : List Char) : digits ('-' :: cs) = none := by
  have hnone (cs : List Char) : cs.foldl (fun acc c => acc.bind fun n =>
      if isDigit c then some (n * 10 + (c.toNat - '0'.toNat)) else none) none = none := by
    induction cs with
    | nil => rfl
    | cons c cs ih => exact ih
  exact hnone cs

/-- A text that starts with a sign is no time. -/
theorem parseTime_minus (h : value.toList = '-' :: cs) : parseTime value = none := by
  have hyear : takeDigits 4 value.toList = none := by
    rw [takeDigits, h]
    split
    · rfl
    · rw [List.take_succ_cons, digits_minus]
      rfl
  rw [parseTime, hyear]
  rfl

/-- A text with a fifth digit is no time. -/
theorem parseTime_five {a b d e : Char} (h : value.toList = a :: b :: c :: d :: e :: cs)
    (he : isDigit e) : parseTime value = none := by
  have hskip : skip '-' (e :: cs) = none := by
    rw [skip, if_neg]
    rintro rfl
    exact absurd he (by decide)
  rw [parseTime, h, takeDigits, if_neg (by simp)]
  cases hdigits : digits (List.take 4 (a :: b :: c :: d :: e :: cs)) with
  | none => rfl
  | some year =>
    refine bind_of_eq (a := (year, e :: cs)) rfl ?_
    simp only [hskip]
    rfl

/-- The text of a time starts with that of its year. -/
theorem exists_toList_formatTime (t : Int) :
    ∃ rest, (formatTime t).toList = (pad 4 (yearOf t)).toList ++ rest := by
  simp only [formatTime, yearOf, String.toList_append, List.append_assoc]
  exact ⟨_, rfl⟩

/-- A formatted time that can be parsed is one of the years 0 to 9999. -/
theorem yearOf_of_parseTime (h : (parseTime (formatTime t)).isSome) :
    0 ≤ yearOf t ∧ yearOf t ≤ 9999 := by
  obtain ⟨rest, htext⟩ := exists_toList_formatTime t
  constructor
  · by_contra hneg
    have hpad : (pad 4 (yearOf t)).toList = '-' :: (List.replicate
        (4 - (toString (yearOf t).natAbs).toList.length) '0' ++
          (toString (yearOf t).natAbs).toList) := by
      simp only [pad, if_pos (show yearOf t < 0 by omega), String.toList_append,
        String.toList_ofList]
      rfl
    rw [hpad, List.cons_append] at htext
    rw [parseTime_minus htext] at h
    cases h
  · by_contra hlarge
    obtain ⟨year, hyear⟩ : ∃ year : Nat, yearOf t = year := Int.eq_ofNat_of_zero_le (by omega)
    rw [hyear] at htext
    have hdigits : ∀ c ∈ (pad 4 year).toList, isDigit c = true := isDigit_pad
    have hlen : 4 < (pad 4 year).toList.length := by
      rw [toList_pad, List.length_append, List.length_replicate]
      have : ¬ (Nat.toDigits 10 year).length ≤ 4 := by
        rw [Nat.length_toDigits_le_iff (by decide) (by decide)]
        omega
      omega
    match hcs : (pad 4 year).toList, hlen, hdigits with
    | a :: b :: c :: d :: e :: cs, _, hdigits =>
      rw [hcs] at htext
      rw [parseTime_five htext (hdigits e (by simp))] at h
      cases h

/-- The time of one text is not later than that of another. -/
def NotLater (a b : String) : Prop := ∃ t u, parseTime a = some t ∧ parseTime b = some u ∧ t ≤ u

/-- A valid time is the text of a time of the years 0 to 9999. -/
theorem validTime_spec (h : validTime value) :
    ∃ t, parseTime value = some t ∧ formatTime t = value ∧ 0 ≤ yearOf t ∧ yearOf t ≤ 9999 := by
  unfold validTime at h
  split at h
  · next t hparse =>
    have htext : formatTime t = value := by simpa using h
    refine ⟨t, hparse, htext, yearOf_of_parseTime ?_⟩
    rw [htext, hparse]
    rfl
  · cases h

/-- **Valid times are compared as their texts are.** -/
theorem notLater_of_le {a b : String} (ha : validTime a) (hb : validTime b)
    (h : a ≤ b) : NotLater a b := by
  obtain ⟨t, hparse, htext, hlow, hhigh⟩ := validTime_spec ha
  obtain ⟨u, hparse', htext', hlow', hhigh'⟩ := validTime_spec hb
  refine ⟨t, u, hparse, hparse', ?_⟩
  by_contra hlt
  have hlt := formatTime_lt hlow' hhigh' hlow hhigh (lt_of_not_ge hlt)
  rw [htext, htext'] at hlt
  exact h hlt

end YukhCoordination.Relay.Lifecycle
