import Stencil.Number.FloatText

/-! Dates and times of day as text. -/
namespace Stencil

structure Date where
  year : Nat
  month : Nat
  day : Nat
  deriving DecidableEq, Repr

/-- A date with a time of day; the offset from universal time, if known, is in minutes. -/
structure DateTime where
  date : Date
  hour : Nat
  minute : Nat
  second : Nat
  microsecond : Nat
  offset : Option Int
  deriving DecidableEq, Repr

def padded (width n : Nat) : String :=
  let digits := toString n
  FloatLayout.zeros (width - digits.length) ++ digits

namespace Date

def text (d : Date) : String := s!"{padded 4 d.year}-{padded 2 d.month}-{padded 2 d.day}"

def dayNumber (d : Date) : Int :=
  let year : Int := if d.month ≤ 2 then d.year - 1 else d.year
  let month := (d.month + 9) % 12
  365 * year + year / 4 - year / 100 + year / 400 + (153 * month + 2) / 5 + d.day - 1

end Date

namespace DateTime

def offsetText (minutes : Int) : String :=
  (if minutes < 0 then "-" else "+") ++
    s!"{padded 2 (minutes.natAbs / 60)}:{padded 2 (minutes.natAbs % 60)}"

def text (separator : String) (t : DateTime) : String :=
  let fraction := if t.microsecond = 0 then "" else "." ++ padded 6 t.microsecond
  let offset := (t.offset.map offsetText).getD ""
  s!"{t.date.text}{separator}{padded 2 t.hour}:{padded 2 t.minute}:{padded 2 t.second}" ++
    fraction ++ offset

def instant (t : DateTime) : Int :=
  let minutes := t.date.dayNumber * 1440 + t.hour * 60 + t.minute - t.offset.getD 0
  (minutes * 60 + t.second) * 1000000 + t.microsecond

/-- Two times with an offset are equal when they are the same instant; a time without one equals
only a time without one. -/
def same (t u : DateTime) : Bool := t.offset.isSome == u.offset.isSome && t.instant == u.instant

end DateTime
end Stencil
