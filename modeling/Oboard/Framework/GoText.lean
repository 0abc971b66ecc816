import Mathlib.Data.List.Basic
import Mathlib.Tactic.Linarith

namespace Oboard.GoText

/-- White space as the standard string functions of Go see it. -/
def isSpace (c : Char) : Bool :=
  (9≤c.toNat && c.toNat≤13) || c.toNat=0x20 || c.toNat=0x85 || c.toNat=0xA0 ||
  c.toNat=0x1680 || (0x2000≤c.toNat && c.toNat≤0x200A) || c.toNat=0x2028 ||
  c.toNat=0x2029 || c.toNat=0x202F || c.toNat=0x205F || c.toNat=0x3000

def trimSpace (s : String) : String :=
  String.ofList ((s.toList.dropWhile isSpace).reverse.dropWhile isSpace).reverse

/-- Deletion of every listed character, as a replacer with empty replacements does. -/
def removeChars (cs : List Char) (s : String) : String :=
  String.ofList (s.toList.filter (fun c => !cs.contains c))

/-- The longest prefix of whole characters within a byte limit. -/
def cutBytes : Nat → List Char → List Char
  | _,[] => []
  | n,c::cs => if c.utf8Size≤n then c::cutBytes (n-c.utf8Size) cs else []

/-- An instant in nanoseconds since the start of year 1 UTC, which is the zero time. -/
abbrev Time := Int

def second : Int := 1000000000
def hour : Int := 3600*second

def padNat (width n : Nat) : String :=
  let digits := toString n
  String.ofList (List.replicate (width-digits.length) '0')++digits

/-- Year, month and day of a day number counted from the start of year 1. -/
def civil (days : Int) : Int×Int×Int :=
  let z := days+306
  let era := z/146097
  let doe := z%146097
  let yoe := (doe-doe/1460+doe/36524-doe/146096)/365
  let doy := doe-(365*yoe+yoe/4-yoe/100)
  let mp := (5*doy+2)/153
  let month := if mp<10 then mp+3 else mp-9
  (yoe+era*400+(if month≤2 then 1 else 0),month,doy-(153*mp+2)/5+1)

/-- Fraction digits with trailing zeros dropped, empty on a whole second. -/
def fraction (nanos : Nat) : String :=
  if nanos=0 then ""
  else "."++String.ofList (((padNat 9 nanos).toList.reverse.dropWhile (fun c => c = '0')).reverse)

/-- Four digits at least, and a sign before year 0. -/
def formatYear (year : Int) : String :=
  if year<0 then "-"++padNat 4 year.natAbs else padNat 4 year.toNat

def formatRFC3339Nano (t : Time) : String :=
  let secs := t/second
  let (year,month,day) := civil (secs/86400)
  let clock := (secs%86400).toNat
  formatYear year++"-"++padNat 2 month.toNat++"-"++padNat 2 day.toNat++"T"++
  padNat 2 (clock/3600)++":"++padNat 2 (clock/60%60)++":"++padNat 2 (clock%60)++
  fraction (t%second).toNat++"Z"

example : formatRFC3339Nano (63871286400*second+120000000)="2025-01-01T00:00:00.12Z" := by decide
example : formatRFC3339Nano (63876513599*second)="2025-03-02T11:59:59Z" := by decide

end Oboard.GoText
