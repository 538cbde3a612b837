import FastcgiContainer.Calendar
import FastcgiContainer.Environment
import FastcgiContainer.Response

/-! The dates in headers: what `HttpDateUtils::format` writes, `HttpDateUtils::parse` reads. The
functions of the C library work as in the "C" locale. -/

namespace FastcgiContainer.HttpDateUtils

open Word (Bytes)

section Parse

inductive Directive where
  | symbol (expected : UInt8)
  | blank
  | weekday
  | day
  | month
  | year
  | yearOfCentury
  | hour
  | minute
  | second

def longDayNames : List Bytes :=
  ["Sunday", "Monday", "Tuesday", "Wednesday", "Thursday", "Friday", "Saturday"].map ascii

def longMonthNames : List Bytes :=
  ["January", "February", "March", "April", "May", "June", "July", "August", "September", "October", "November",
    "December"].map ascii

/-- Letters match in both cases. -/
def matchString (name rp : Bytes) : Option Bytes :=
  if (rp.take name.length).map tolower = name.map tolower then some (rp.drop name.length) else none

def matchNames : List (Bytes × Bytes) → Nat → Bytes → Option (Nat × Bytes)
  | [], _, _ => none
  | (long, short) :: rest, index, rp =>
      match (matchString long rp).or (matchString short rp) with
      | some rp => some (index, rp)
      | none => matchNames rest (index + 1) rp

/-- At most so many digits, and none that would make the number too large. -/
def numberLoop (upTo : Nat) : Nat → Nat → Bytes → Nat × Bytes
  | 0, val, rp => (val, rp)
  | _ + 1, val, [] => (val, [])
  | n + 1, val, digit :: rest =>
      if val * 10 ≤ upTo ∧ isdigit digit = true then numberLoop upTo n (10 * val + (digit.toNat - 48)) rest
      else (val, digit :: rest)

def getNumber (least upTo n : Nat) (rp : Bytes) : Option (Nat × Bytes) :=
  let rp := rp.dropWhile isspace
  if rp.head?.any isdigit then
    let (val, rp) := numberLoop upTo n 0 rp
    if least ≤ val ∧ val ≤ upTo then some (val, rp) else none
  else none

def read (rp : Bytes) (ts : Tm) : Directive → Option (Bytes × Tm)
  | .symbol expected => if rp.head? = some expected then some (rp.tail, ts) else none
  | .blank => some (rp.dropWhile isspace, ts)
  | .weekday => (matchNames (longDayNames.zip dayNames) 0 rp).map (fun found => (found.2, { ts with weekday := found.1 }))
  | .month =>
      (matchNames (longMonthNames.zip monthNames) 0 rp).map (fun found => (found.2, { ts with month := found.1 + 1 }))
  | .day => (getNumber 1 31 2 rp).map (fun found => (found.2, { ts with day := found.1 }))
  | .year => (getNumber 0 9999 4 rp).map (fun found => (found.2, { ts with year := found.1 }))
  | .yearOfCentury =>
      (getNumber 0 99 2 rp).map (fun found =>
        (found.2, { ts with year := if found.1 < 69 then 2000 + found.1 else 1900 + found.1 }))
  | .hour => (getNumber 0 23 2 rp).map (fun found => (found.2, { ts with hour := found.1 }))
  | .minute => (getNumber 0 59 2 rp).map (fun found => (found.2, { ts with minute := found.1 }))
  | .second => (getNumber 0 61 2 rp).map (fun found => (found.2, { ts with second := found.1 }))

/-- What was read before the text went wrong stays in the fields. -/
def strptime : List Directive → Bytes → Tm → Tm × Option Bytes
  | [], rp, ts => (ts, some rp)
  | directive :: rest, rp, ts =>
      match read rp ts directive with
      | none => (ts, none)
      | some (rp, ts) => strptime rest rp ts

def timeOfDay : List Directive := [.hour, .symbol 58, .minute, .symbol 58, .second]

def greenwich : List Directive := [.blank, .symbol 71, .symbol 77, .symbol 84]

/-- `%a, %d %b %Y %T GMT` -/
def dateFormat : List Directive :=
  [.weekday, .symbol 44, .blank, .day, .blank, .month, .blank, .year, .blank] ++ (timeOfDay ++ greenwich)

/-- `%A, %d-%b-%y %T GMT` -/
def oldDateFormat : List Directive :=
  [.weekday, .symbol 44, .blank, .day, .symbol 45, .month, .symbol 45, .yearOfCentury, .blank] ++
    (timeOfDay ++ greenwich)

/-- `%a %b %d %T %Y` -/
def asctimeFormat : List Directive :=
  [.weekday, .blank, .month, .blank, .day, .blank] ++ (timeOfDay ++ [.blank, .year])

def cleared : Tm := ⟨1900, 1, 0, 0, 0, 0, 0⟩

variable (mktime : Tm → Int) (timezone : Int)

def parseLoop (value : Bytes) : List (List Directive) → Tm → Int
  | [], _ => 0
  | format :: rest, ts =>
      match strptime format value ts with
      | (ts, some _) => mktime ts - timezone
      | (ts, none) => parseLoop value rest ts

def parse (value : Bytes) : Int := parseLoop mktime timezone value [dateFormat, oldDateFormat, asctimeFormat] cleared

def timegm (ts : Tm) : Int :=
  86400 * Calendar.dayNumber ts.year ts.month ts.day + 3600 * ts.hour + 60 * ts.minute + ts.second

example : parse timegm 0 (ascii "Sunday, 06-Nov-94 08:49:37 GMT") = 784111777 := by decide +kernel

end Parse

section Broken

theorem dayNumber_civil (days : Int) : Calendar.dayNumber (civil days).1 (civil days).2.1 (civil days).2.2 = days := by
  have inEra : ((days + 719468) % 146097).toNat < 146097 := by omega
  have whole : days = 146097 * ((days + 719468) / 146097) + ((days + 719468) % 146097).toNat - 719468 := by omega
  obtain ⟨century, quad, year, dayOfYear, split, c, q, y, d, leap⟩ := Calendar.era_parts _ inEra
  simp only [civil]
  generalize (days + 719468) / 146097 = era at whole
  generalize ((days + 719468) % 146097).toNat = dayOfEra at *
  subst split
  obtain ⟨extra, last, quads, centuries, ends, early, less⟩ :=
    Calendar.leap_estimates century quad year dayOfYear c q y d leap
  have years := Calendar.yearOfEra_eq century quad year dayOfYear extra last early less
  rw [quads, centuries, ends, years]
  have passed : 365 * (100 * century + 4 * quad + year) + (100 * century + 4 * quad + year) / 4 -
      (100 * century + 4 * quad + year) / 100 = 36524 * century + 1461 * quad + 365 * year := by
    clear * - q y
    omega
  rw [passed, Nat.add_sub_cancel_left]
  have inYear : (5 * dayOfYear + 2) / 153 ≤ 11 := by
    clear * - d
    omega
  have inMonth : (153 * ((5 * dayOfYear + 2) / 153) + 2) / 5 ≤ dayOfYear := by
    clear * - d
    omega
  generalize (5 * dayOfYear + 2) / 153 = shifted at *
  clear quads centuries ends years leap passed early less
  have fourths : (100 * century + 4 * quad + year + era * 400 : Int) / 4 = 25 * century + quad + 100 * era := by
    clear * - y
    omega
  have hundredths : (100 * century + 4 * quad + year + era * 400 : Int) / 100 = century + 4 * era := by
    clear * - q y
    omega
  have eras : (100 * century + 4 * quad + year + era * 400 : Int) / 400 = era := by
    clear * - c q y
    omega
  have number := Calendar.dayNumber_shifted ((100 * century + 4 * quad + year : Nat) + era * 400) shifted
    (dayOfYear - (153 * shifted + 2) / 5 + 1) inYear
  refine Eq.trans number ?_
  rw [whole]
  push_cast
  rw [fourths, hundredths, eras, Nat.cast_sub inMonth]
  push_cast
  ring

end Broken

section Digits

theorem digit_ofNat (digit : Nat) (small : digit < 10) :
    UInt8.ofNat (Nat.digitChar digit).toNat = UInt8.ofNat (48 + digit) := by
  interval_cases digit <;> rfl

theorem decimal_eq (value : Nat) :
    decimal value = (if value < 10 then [] else decimal (value / 10)) ++ [UInt8.ofNat (48 + value % 10)] := by
  have digits : ∀ number, decimal number = (Nat.toDigits 10 number).map (fun symbol => UInt8.ofNat symbol.toNat) := by
    intro number
    simp [decimal, ascii]
  simp only [digits]
  rw [Nat.toDigits_eq_if (by omega)]
  split
  · next small => simp [digit_ofNat value small, Nat.mod_eq_of_lt small]
  · simp [digit_ofNat (value % 10) (Nat.mod_lt _ (by omega))]

theorem digit_toNat (digit : Nat) : (UInt8.ofNat (48 + digit % 10)).toNat = 48 + digit % 10 := by
  rw [UInt8.toNat_ofNat', Nat.mod_eq_of_lt (by omega)]

theorem isdigit_digit (digit : Nat) : isdigit (UInt8.ofNat (48 + digit % 10)) = true := by
  have number := digit_toNat digit
  simp only [isdigit, Bool.and_eq_true, decide_eq_true_eq, UInt8.le_iff_toNat_le, number]
  exact ⟨Nat.le_add_right _ _, by simp; omega⟩

theorem isdigit_decimal (value : Nat) : ∀ digit ∈ decimal value, isdigit digit = true := by
  induction value using Nat.strong_induction_on with
  | h value ih =>
      intro digit member
      rw [decimal_eq] at member
      rcases List.mem_append.mp member with front | last
      · split at front
        · cases front
        · exact ih (value / 10) (by omega) digit front
      · rw [List.mem_singleton.mp last]
        exact isdigit_digit value

theorem digitsValue_append (digits : Bytes) (last : UInt8) :
    digitsValue (digits ++ [last]) = 10 * digitsValue digits + (last.toNat - 48) := by
  simp [digitsValue]

theorem digitsValue_decimal (value : Nat) : digitsValue (decimal value) = value := by
  induction value using Nat.strong_induction_on with
  | h value ih =>
      rw [decimal_eq, digitsValue_append, digit_toNat]
      split
      · next small => simp [digitsValue, Nat.mod_eq_of_lt small]
      · rw [ih (value / 10) (by omega)]
        omega

theorem decimal_length (value width : Nat) (some : 0 < width) :
    (decimal value).length ≤ width ↔ value < 10 ^ width := by
  have length : (decimal value).length = (Nat.toDigits 10 value).length := by simp [decimal, ascii]
  rw [length]
  exact Nat.length_toDigits_le_iff (by omega) some

theorem decimal_ne_nil (value : Nat) : decimal value ≠ [] := by
  rw [decimal_eq]
  exact List.append_ne_nil_of_right_ne_nil _ (List.cons_ne_nil _ _)

structure TwoDigits (value : Nat) (digits : Bytes) : Prop where
  all : ∀ digit ∈ digits, isdigit digit = true
  size : digits.length = 2
  number : digitsValue digits = value

theorem twoDigits_spec (value : Nat) (small : value < 100) : TwoDigits value (twoDigits value) := by
  have one := decimal_length value 1 (by omega)
  have two := decimal_length value 2 (by omega)
  have filled := List.length_pos_of_ne_nil (decimal_ne_nil value)
  unfold twoDigits
  split
  · next single =>
      refine ⟨?_, ?_, ?_⟩
      · intro digit member
        rcases List.mem_cons.mp member with rfl | later
        · rfl
        · exact isdigit_decimal value digit later
      · rw [List.length_cons]
        omega
      · exact digitsValue_decimal value
  · exact ⟨isdigit_decimal value, by omega, digitsValue_decimal value⟩

end Digits

section Numbers

theorem le_foldl_digits (digits : Bytes) (val : Nat) :
    val ≤ digits.foldl (fun value digit => 10 * value + (digit.toNat - 48)) val := by
  induction digits generalizing val with
  | nil => exact le_refl _
  | cons digit rest ih =>
      have later := ih (10 * val + (digit.toNat - 48))
      rw [List.foldl_cons]
      omega

theorem numberLoop_digits (upTo n val : Nat) (digits rest : Bytes) (all : ∀ digit ∈ digits, isdigit digit = true)
    (enough : digits.length ≤ n) (stops : digits.length = n ∨ ∀ symbol ∈ rest.head?, isdigit symbol = false)
    (fits : digits.foldl (fun value digit => 10 * value + (digit.toNat - 48)) val ≤ upTo) :
    numberLoop upTo n val (digits ++ rest) =
      (digits.foldl (fun value digit => 10 * value + (digit.toNat - 48)) val, rest) := by
  induction digits generalizing n val with
  | nil =>
      cases n with
      | zero => rfl
      | succ n =>
          cases rest with
          | nil => rfl
          | cons symbol rest =>
              have other := stops.resolve_left (by simp) symbol rfl
              simp [numberLoop, other]
  | cons digit digits ih =>
      obtain ⟨n, rfl⟩ := Nat.exists_eq_add_of_le' (le_trans (by simp) enough : 1 ≤ n)
      have grows := le_foldl_digits digits (10 * val + (digit.toNat - 48))
      have small : val * 10 ≤ upTo := by
        rw [List.foldl_cons] at fits
        omega
      rw [List.length_cons] at enough stops
      rw [List.cons_append, numberLoop, if_pos ⟨small, all digit List.mem_cons_self⟩]
      exact ih n _ (fun other member => all other (List.mem_cons_of_mem _ member)) (by omega)
        (stops.imp_left (fun full => by omega)) fits

theorem isdigit_isspace {symbol : UInt8} (digit : isdigit symbol = true) : isspace symbol = false := by
  simp only [isdigit, Bool.and_eq_true, decide_eq_true_eq, UInt8.le_iff_toNat_le] at digit
  simp only [isspace, Bool.or_eq_false_iff, beq_eq_false_iff_ne, Bool.and_eq_false_iff, decide_eq_false_iff_not,
    UInt8.le_iff_toNat_le]
  obtain ⟨low, high⟩ := digit
  refine ⟨?_, Or.inr ?_⟩
  · rintro rfl
    exact absurd low (by decide)
  · intro small
    have : (48 : UInt8).toNat = 48 := rfl
    have : (13 : UInt8).toNat = 13 := rfl
    omega

theorem dropWhile_digits (digits rest : Bytes) (all : ∀ digit ∈ digits, isdigit digit = true) (filled : digits ≠ []) :
    (digits ++ rest).dropWhile isspace = digits ++ rest ∧ (digits ++ rest).head?.any isdigit = true := by
  cases digits with
  | nil => exact absurd rfl filled
  | cons digit digits =>
      have here := all digit List.mem_cons_self
      constructor
      · rw [List.cons_append, List.dropWhile_cons_of_neg (by simp [isdigit_isspace here])]
      · simpa using here

theorem getNumber_digits (least upTo n : Nat) (digits rest : Bytes) (all : ∀ digit ∈ digits, isdigit digit = true)
    (filled : digits ≠ []) (enough : digits.length ≤ n)
    (stops : digits.length = n ∨ ∀ symbol ∈ rest.head?, isdigit symbol = false)
    (low : least ≤ digitsValue digits) (high : digitsValue digits ≤ upTo) :
    getNumber least upTo n (digits ++ rest) = some (digitsValue digits, rest) := by
  obtain ⟨start, first⟩ := dropWhile_digits digits rest all filled
  have loop := numberLoop_digits upTo n 0 digits rest all enough stops high
  have value : digits.foldl (fun value digit => 10 * value + (digit.toNat - 48)) 0 = digitsValue digits := rfl
  rw [value] at loop
  simp only [getNumber, start, first, loop, if_true, low, high, and_self]

theorem getNumber_twoDigits {value : Nat} {digits : Bytes} (two : TwoDigits value digits) (least upTo : Nat)
    (rest : Bytes) (low : least ≤ value) (high : value ≤ upTo) :
    getNumber least upTo 2 (digits ++ rest) = some (value, rest) := by
  have filled : digits ≠ [] := List.ne_nil_of_length_pos (by rw [two.size]; decide)
  have found := getNumber_digits least upTo 2 digits rest two.all filled (le_of_eq two.size) (Or.inl two.size)
    (by rw [two.number]; exact low) (by rw [two.number]; exact high)
  rw [two.number] at found
  exact found

end Numbers

section LongNumbers

theorem digitsValue_lt (digits : Bytes) (all : ∀ digit ∈ digits, isdigit digit = true) :
    digitsValue digits < 10 ^ digits.length := by
  induction digits using List.reverseRecOn with
  | nil => decide
  | append_singleton digits last ih =>
      have before := ih (fun digit member => all digit (List.mem_append_left _ member))
      have shown := all last (by simp)
      simp only [isdigit, Bool.and_eq_true, decide_eq_true_eq, UInt8.le_iff_toNat_le] at shown
      have nine : (57 : UInt8).toNat = 57 := rfl
      rw [digitsValue_append, List.length_append, List.length_singleton, Nat.pow_succ]
      omega

theorem numberLoop_left (upTo n val : Nat) (digits rest : Bytes) (all : ∀ digit ∈ digits, isdigit digit = true) :
    ∃ left, (numberLoop upTo n val (digits ++ 32 :: rest)).2 = left ++ 32 :: rest ∧
      ∀ digit ∈ left, isdigit digit = true := by
  induction n generalizing val digits with
  | zero => exact ⟨digits, rfl, all⟩
  | succ n ih =>
      cases digits with
      | nil => exact ⟨[], by simp [numberLoop, isdigit], by simp⟩
      | cons digit digits =>
          rw [List.cons_append, numberLoop]
          split
          · exact ih _ digits (fun other member => all other (List.mem_cons_of_mem _ member))
          · exact ⟨digit :: digits, rfl, all⟩

theorem getNumber_left {least upTo n : Nat} {digits rest : Bytes} (all : ∀ digit ∈ digits, isdigit digit = true)
    (filled : digits ≠ []) {val : Nat} {after : Bytes}
    (found : getNumber least upTo n (digits ++ 32 :: rest) = some (val, after)) : after.head? ≠ some 58 := by
  obtain ⟨start, first⟩ := dropWhile_digits digits (32 :: rest) all filled
  obtain ⟨left, same, digits⟩ := numberLoop_left upTo n 0 digits rest all
  simp only [getNumber, start, first, if_true] at found
  split at found
  · cases found
    rw [same]
    cases left with
    | nil => simp
    | cons digit left =>
        have shown := digits digit List.mem_cons_self
        rintro colon
        cases colon
        revert shown
        decide
  · cases found

end LongNumbers

section Read

variable (ts : Tm) (rest : Bytes)

theorem strptime_cons {directive : Directive} {directives : List Directive} {rp after : Bytes} {start next : Tm}
    (found : read rp start directive = some (after, next)) :
    strptime (directive :: directives) rp start = strptime directives after next := by
  rw [strptime, found]

theorem strptime_stops {directive : Directive} {directives : List Directive} {rp : Bytes} {start : Tm}
    (missed : read rp start directive = none) : (strptime (directive :: directives) rp start).2 = none := by
  rw [strptime, missed]

theorem read_symbol (symbol : UInt8) : read (symbol :: rest) ts (.symbol symbol) = some (rest, ts) := by
  simp [read]

theorem read_symbol_other {symbol expected : UInt8} (other : symbol ≠ expected) :
    read (symbol :: rest) ts (.symbol expected) = none := by
  simp [read, other]

def Starts (text : Bytes) : Prop := ∃ symbol tail, text = symbol :: tail ∧ isspace symbol = false

theorem read_blank {text : Bytes} (starts : Starts text) : read (32 :: text) ts .blank = some (text, ts) := by
  obtain ⟨symbol, tail, rfl, word⟩ := starts
  rw [read, List.dropWhile_cons_of_pos (by decide), List.dropWhile_cons_of_neg (by simp [word])]

theorem read_blank_none {text : Bytes} (starts : Starts text) : read text ts .blank = some (text, ts) := by
  obtain ⟨symbol, tail, rfl, word⟩ := starts
  rw [read, List.dropWhile_cons_of_neg (by simp [word])]

theorem starts_digits {digits : Bytes} (all : ∀ digit ∈ digits, isdigit digit = true) (filled : digits ≠ []) :
    Starts (digits ++ rest) := by
  cases digits with
  | nil => exact absurd rfl filled
  | cons digit digits => exact ⟨digit, digits ++ rest, rfl, isdigit_isspace (all digit List.mem_cons_self)⟩

theorem starts_month (month : Nat) (known : month < 12) : Starts (monthNames.getD month [] ++ rest) := by
  have names : ∀ name ∈ monthNames, name ≠ [] ∧ ∀ symbol ∈ name.head?, isspace symbol = false := by decide +kernel
  have member : monthNames.getD month [] ∈ monthNames := by
    have inside : month < monthNames.length := by simpa [monthNames] using known
    rw [List.getD_eq_getElem?_getD, List.getElem?_eq_getElem inside]
    exact List.getElem_mem inside
  obtain ⟨filled, word⟩ := names _ member
  cases name : monthNames.getD month [] with
  | nil => exact absurd name filled
  | cons symbol tail => exact ⟨symbol, tail ++ rest, rfl, word symbol (by rw [name]; rfl)⟩

theorem read_weekday (weekday : Nat) (known : weekday < 7) :
    read (dayNames.getD weekday [] ++ 44 :: rest) ts .weekday = some (44 :: rest, { ts with weekday := weekday }) := by
  interval_cases weekday <;>
    simp [read, dayNames, longDayNames, ascii, matchNames, matchString, tolower]

theorem read_month (month : Nat) (known : month < 12) :
    read (monthNames.getD month [] ++ 32 :: rest) ts .month = some (32 :: rest, { ts with month := month + 1 }) := by
  interval_cases month <;>
    simp [read, monthNames, longMonthNames, ascii, matchNames, matchString, tolower]

end Read

structure Tm.Shown (ts : Tm) : Prop where
  month : 1 ≤ ts.month ∧ ts.month ≤ 12
  day : 1 ≤ ts.day ∧ ts.day ≤ 31
  hour : ts.hour < 24
  minute : ts.minute < 60
  second : ts.second < 60
  weekday : ts.weekday < 7

theorem civil_shown (days : Int) : (1 ≤ (civil days).2.1 ∧ (civil days).2.1 ≤ 12) ∧
    1 ≤ (civil days).2.2 ∧ (civil days).2.2 ≤ 31 := by
  have inEra : ((days + 719468) % 146097).toNat < 146097 := by omega
  obtain ⟨century, quad, year, dayOfYear, split, c, q, y, d, leap⟩ := Calendar.era_parts _ inEra
  obtain ⟨extra, last, quads, centuries, ends, early, less⟩ :=
    Calendar.leap_estimates century quad year dayOfYear c q y d leap
  have years := Calendar.yearOfEra_eq century quad year dayOfYear extra last early less
  have passed : 365 * (100 * century + 4 * quad + year) + (100 * century + 4 * quad + year) / 4 -
      (100 * century + 4 * quad + year) / 100 = 36524 * century + 1461 * quad + 365 * year := by
    clear * - q y
    omega
  simp only [civil]
  rw [split, quads, centuries, ends, years, passed, Nat.add_sub_cancel_left]
  clear * - d
  refine ⟨⟨?_, ?_⟩, ?_, ?_⟩
  · split <;> omega
  · split <;> omega
  · omega
  · omega

theorem gmtime_eq (value : Int) (fits : yearFits value) : gmtime value =
    some ⟨(civil (value / 86400)).1, (civil (value / 86400)).2.1, (civil (value / 86400)).2.2,
      (value % 86400).toNat / 3600, (value % 86400).toNat / 60 % 60, (value % 86400).toNat % 60,
      ((value / 86400 + 4) % 7).toNat⟩ := if_pos fits

theorem gmtime_shown {value : Int} {ts : Tm} (broken : gmtime value = some ts) :
    ts.Shown ∧ ts.year = year value ∧ timegm ts = value := by
  have fits : yearFits value := by
    by_contra wide
    rw [gmtime, if_neg wide] at broken
    cases broken
  rw [gmtime_eq value fits] at broken
  have days := dayNumber_civil (value / 86400)
  have shown := civil_shown (value / 86400)
  have known : year value = (civil (value / 86400)).1 := rfl
  rw [known]
  generalize civil (value / 86400) = parts at days shown broken
  cases broken
  refine ⟨⟨shown.1, shown.2, ?_, ?_, ?_, ?_⟩, rfl, ?_⟩
  · simp only
    omega
  · simp only
    omega
  · simp only
    omega
  · simp only
    omega
  · simp only [timegm, days]
    omega

theorem strftime_eq (ts : Tm) : strftime ts = dayNames.getD ts.weekday [] ++ 44 :: 32 :: (twoDigits ts.day ++
    32 :: (monthNames.getD (ts.month - 1) [] ++ 32 :: (yearDigits ts.year ++ 32 :: (twoDigits ts.hour ++
      58 :: (twoDigits ts.minute ++ 58 :: (twoDigits ts.second ++ [32, 71, 77, 84])))))) := by
  simp [strftime, ascii]

section RoundTrip

variable {ts : Tm} (shown : ts.Shown)

theorem yearDigits_cast (year : Nat) : yearDigits year = decimal year := by
  simp [yearDigits]

include shown

theorem read_day (rest : Bytes) (start : Tm) :
    read (twoDigits ts.day ++ rest) start .day = some (rest, { start with day := ts.day }) := by
  have two := twoDigits_spec ts.day (lt_of_le_of_lt shown.day.2 (by decide))
  rw [read, getNumber_twoDigits two 1 31 rest shown.day.1 shown.day.2]
  rfl

theorem read_hour (rest : Bytes) (start : Tm) :
    read (twoDigits ts.hour ++ rest) start .hour = some (rest, { start with hour := ts.hour }) := by
  have two := twoDigits_spec ts.hour (lt_trans shown.hour (by decide))
  rw [read, getNumber_twoDigits two 0 23 rest (Nat.zero_le _) (Nat.le_of_lt_succ shown.hour)]
  rfl

theorem read_minute (rest : Bytes) (start : Tm) :
    read (twoDigits ts.minute ++ rest) start .minute = some (rest, { start with minute := ts.minute }) := by
  have two := twoDigits_spec ts.minute (lt_trans shown.minute (by decide))
  rw [read, getNumber_twoDigits two 0 59 rest (Nat.zero_le _) (Nat.le_of_lt_succ shown.minute)]
  rfl

theorem read_second (rest : Bytes) (start : Tm) :
    read (twoDigits ts.second ++ rest) start .second = some (rest, { start with second := ts.second }) := by
  have two := twoDigits_spec ts.second (lt_trans shown.second (by decide))
  rw [read, getNumber_twoDigits two 0 61 rest (Nat.zero_le _) (le_trans (Nat.le_of_lt shown.second) (by decide))]
  rfl

theorem strptime_month (directives : List Directive) (rest : Bytes) (start : Tm) :
    strptime (.weekday :: .symbol 44 :: .blank :: .day :: .blank :: .month :: directives)
        (dayNames.getD ts.weekday [] ++ 44 :: 32 :: (twoDigits ts.day ++
          32 :: (monthNames.getD (ts.month - 1) [] ++ 32 :: rest))) start =
      strptime directives (32 :: rest)
        { start with weekday := ts.weekday, day := ts.day, month := ts.month } := by
  have inYear : ts.month - 1 < 12 := by
    have last := shown.month.2
    omega
  have number : ts.month - 1 + 1 = ts.month := Nat.sub_add_cancel shown.month.1
  have two := twoDigits_spec ts.day (lt_of_le_of_lt shown.day.2 (by decide))
  have filled : twoDigits ts.day ≠ [] := List.ne_nil_of_length_pos (by rw [two.size]; decide)
  rw [strptime_cons (read_weekday start _ ts.weekday shown.weekday), strptime_cons (read_symbol _ _ 44),
    strptime_cons (read_blank _ (starts_digits _ two.all filled)), strptime_cons (read_day shown _ _),
    strptime_cons (read_blank _ (starts_month _ _ inYear)), strptime_cons (read_month _ _ _ inYear), number]

theorem strptime_time (start : Tm) :
    strptime (timeOfDay ++ greenwich) (twoDigits ts.hour ++ 58 :: (twoDigits ts.minute ++
        58 :: (twoDigits ts.second ++ [32, 71, 77, 84]))) start =
      ({ start with hour := ts.hour, minute := ts.minute, second := ts.second }, some []) := by
  simp only [timeOfDay, greenwich, List.cons_append, List.nil_append]
  rw [strptime_cons (read_hour shown _ _), strptime_cons (read_symbol _ _ 58), strptime_cons (read_minute shown _ _),
    strptime_cons (read_symbol _ _ 58), strptime_cons (read_second shown _ _),
    strptime_cons (read_blank _ ⟨71, [77, 84], rfl, by decide⟩), strptime_cons (read_symbol _ _ 71),
    strptime_cons (read_symbol _ _ 77), strptime_cons (read_symbol _ _ 84), strptime]

theorem strptime_strftime (small : 0 ≤ ts.year ∧ ts.year ≤ 9999) (start : Tm) :
    strptime dateFormat (strftime ts) start = (ts, some []) := by
  obtain ⟨year, whole⟩ := Int.eq_ofNat_of_zero_le small.1
  have short : (decimal year).length ≤ 4 := (decimal_length year 4 (by decide)).mpr (by omega)
  have value := digitsValue_decimal year
  have two := twoDigits_spec ts.hour (lt_trans shown.hour (by decide))
  have filled : twoDigits ts.hour ≠ [] := List.ne_nil_of_length_pos (by rw [two.size]; decide)
  have years : ∀ rest start, read (decimal year ++ 32 :: rest) start .year =
      some (32 :: rest, { start with year := ts.year }) := by
    intro rest start
    have found := getNumber_digits 0 9999 4 (decimal year) (32 :: rest) (isdigit_decimal year) (decimal_ne_nil year)
      short (Or.inr (by simp [isdigit])) (Nat.zero_le _) (by omega)
    rw [read, found, value, whole]
    rfl
  rw [strftime_eq, whole, yearDigits_cast]
  simp only [dateFormat, List.cons_append, List.nil_append]
  rw [strptime_month shown, strptime_cons (read_blank _ (starts_digits _ (isdigit_decimal year) (decimal_ne_nil year))),
    strptime_cons (years _ _), strptime_cons (read_blank _ (starts_digits _ two.all filled)), strptime_time shown]

theorem strptime_other (start : Tm) :
    (strptime oldDateFormat (strftime ts) start).2 = none ∧ (strptime asctimeFormat (strftime ts) start).2 = none := by
  have two := twoDigits_spec ts.day (lt_of_le_of_lt shown.day.2 (by decide))
  have filled : twoDigits ts.day ≠ [] := List.ne_nil_of_length_pos (by rw [two.size]; decide)
  rw [strftime_eq]
  constructor
  · simp only [oldDateFormat, List.cons_append, List.nil_append]
    rw [strptime_cons (read_weekday start _ ts.weekday shown.weekday), strptime_cons (read_symbol _ _ 44),
      strptime_cons (read_blank _ (starts_digits _ two.all filled)), strptime_cons (read_day shown _ _)]
    exact strptime_stops (read_symbol_other _ _ (by decide))
  · simp only [asctimeFormat, List.cons_append, List.nil_append]
    rw [strptime_cons (read_weekday start _ ts.weekday shown.weekday),
      strptime_cons (read_blank_none _ ⟨44, _, rfl, by decide⟩)]
    exact strptime_stops (by simp [read, longMonthNames, monthNames, ascii, matchNames, matchString, tolower])

theorem strptime_wide (wide : ¬(0 ≤ ts.year ∧ ts.year ≤ 9999)) (start : Tm) :
    (strptime dateFormat (strftime ts) start).2 = none := by
  rw [strftime_eq]
  simp only [dateFormat, List.cons_append, List.nil_append]
  rw [strptime_month shown]
  by_cases negative : ts.year < 0
  · have signed : yearDigits ts.year = 45 :: decimal ts.year.natAbs := if_pos negative
    rw [signed, List.cons_append, strptime_cons (read_blank _ ⟨45, _, rfl, by decide⟩)]
    refine strptime_stops ?_
    rw [read, getNumber, List.dropWhile_cons_of_neg (by decide)]
    rfl
  · obtain ⟨year, whole⟩ := Int.eq_ofNat_of_zero_le (not_lt.mp negative)
    have long : 4 < (decimal year).length := by
      rw [← not_le, decimal_length year 4 (by decide)]
      omega
    have all := isdigit_decimal year
    have front : ∀ digit ∈ (decimal year).take 4, isdigit digit = true :=
      fun digit member => all digit (List.mem_of_mem_take member)
    have back : ∀ digit ∈ (decimal year).drop 4, isdigit digit = true :=
      fun digit member => all digit (List.mem_of_mem_drop member)
    have size : ((decimal year).take 4).length = 4 := by
      rw [List.length_take]
      omega
    have more : (decimal year).drop 4 ≠ [] := List.ne_nil_of_length_pos (by rw [List.length_drop]; omega)
    have bound := digitsValue_lt _ front
    rw [size] at bound
    rw [whole, yearDigits_cast, strptime_cons (read_blank _ (starts_digits _ all (decimal_ne_nil year)))]
    -- Four digits are the year, and the next are no hour, for no colon follows them.
    have years := getNumber_digits 0 9999 4 _ ((decimal year).drop 4 ++ 32 :: (twoDigits ts.hour ++
      58 :: (twoDigits ts.minute ++ 58 :: (twoDigits ts.second ++ [32, 71, 77, 84])))) front
      (List.ne_nil_of_length_pos (by rw [size]; decide)) (le_of_eq size) (Or.inl size) (Nat.zero_le _) (by omega)
    rw [← List.append_assoc, List.take_append_drop] at years
    rw [strptime_cons (by rw [read, years]; rfl), strptime_cons (read_blank_none _ (starts_digits _ back more))]
    simp only [timeOfDay, List.cons_append]
    cases hours : getNumber 0 23 2 ((decimal year).drop 4 ++ 32 :: (twoDigits ts.hour ++
        58 :: (twoDigits ts.minute ++ 58 :: (twoDigits ts.second ++ [32, 71, 77, 84])))) with
    | none => exact strptime_stops (by rw [read, hours]; rfl)
    | some found =>
        have colon := getNumber_left back more hours
        rw [strptime_cons (by rw [read, hours]; rfl)]
        exact strptime_stops (by rw [read, if_neg colon])

end RoundTrip

section Parse

variable (mktime : Tm → Int) (timezone : Int)

theorem parseLoop_found {value : Bytes} {format : List Directive} {rest : List (List Directive)} {start ts : Tm}
    {left : Bytes} (read : strptime format value start = (ts, some left)) :
    parseLoop mktime timezone value (format :: rest) start = mktime ts - timezone := by
  rw [parseLoop, read]

theorem parseLoop_missed {value : Bytes} {format : List Directive} (rest : List (List Directive)) {start : Tm}
    (missed : (strptime format value start).2 = none) :
    ∃ next, parseLoop mktime timezone value (format :: rest) start = parseLoop mktime timezone value rest next := by
  cases tried : strptime format value start with
  | mk next found =>
      rw [tried] at missed
      subst missed
      exact ⟨next, by rw [parseLoop, tried]⟩

theorem format_strftime {value : Int} {text : Bytes} (formatted : format value = .ok text) :
    ∃ ts : Tm, ts.Shown ∧ ts.year = year value ∧ timegm ts = value ∧ text = strftime ts := by
  unfold format at formatted
  split at formatted
  · next ts broken =>
      cases formatted
      obtain ⟨shown, same, seconds⟩ := gmtime_shown broken
      exact ⟨ts, shown, same, seconds, rfl⟩
  · cases formatted

/-- A date that was written is read as the same time, exactly when its year has no sign and at
most four digits; any other date is read as the Epoch. -/
theorem date_is_read_back_iff (standard : ∀ ts, mktime ts = timegm ts + timezone) (value : Int) (text : Bytes)
    (formatted : format value = .ok text) :
    (parse mktime timezone text = value ↔ 0 ≤ year value ∧ year value ≤ 9999) ∧
      (parse mktime timezone text ≠ value → parse mktime timezone text = 0) := by
  obtain ⟨ts, shown, same, seconds, rfl⟩ := format_strftime formatted
  by_cases small : 0 ≤ ts.year ∧ ts.year ≤ 9999
  · have back : parse mktime timezone (strftime ts) = value := by
      rw [parse, parseLoop_found mktime timezone (strptime_strftime shown small cleared), standard, seconds]
      omega
    rw [← same]
    exact ⟨iff_of_true back small, fun other => absurd back other⟩
  · have epoch : parse mktime timezone (strftime ts) = 0 := by
      obtain ⟨first, tried⟩ := parseLoop_missed mktime timezone [oldDateFormat, asctimeFormat]
        (strptime_wide shown small cleared)
      obtain ⟨second, again⟩ := parseLoop_missed mktime timezone [asctimeFormat] (strptime_other shown first).1
      obtain ⟨third, last⟩ := parseLoop_missed mktime timezone [] (strptime_other shown second).2
      rw [parse, tried, again, last, parseLoop]
    have other : parse mktime timezone (strftime ts) ≠ value := by
      rw [epoch]
      rintro rfl
      have known : year 0 = 1970 := by decide
      rw [same, known] at small
      exact small (by decide)
    rw [← same]
    exact ⟨iff_of_false other small, fun _ => epoch⟩

theorem date_is_read_back_iff_sample :
    (parse (fun ts => timegm ts - 3600) (-3600) (ascii "Sun, 06 Nov 1994 08:49:37 GMT") = 784111777 ↔
      0 ≤ year 784111777 ∧ year 784111777 ≤ 9999) ∧
    (parse (fun ts => timegm ts - 3600) (-3600) (ascii "Sun, 06 Nov 1994 08:49:37 GMT") ≠ 784111777 →
      parse (fun ts => timegm ts - 3600) (-3600) (ascii "Sun, 06 Nov 1994 08:49:37 GMT") = 0) :=
  date_is_read_back_iff (fun ts => timegm ts - 3600) (-3600) (fun _ => rfl) 784111777
    (ascii "Sun, 06 Nov 1994 08:49:37 GMT") (by decide +kernel)

end Parse

end FastcgiContainer.HttpDateUtils
