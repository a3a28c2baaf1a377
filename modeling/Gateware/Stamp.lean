import Gateware.Text.Numeral

/-!
# Stamps

What the banner of a generated file says about the run that wrote it, and how times are written.
-/

namespace Gateware

open Text

structure Stamp where
  version : Text
  time : Text
  year : Int
deriving DecidableEq

/-- A time as calendar and clock show it; months and days count from one. -/
structure CalendarTime where
  year : Int
  month : Nat
  day : Nat
  hour : Nat
  minute : Nat
  second : Nat
  millisecond : Nat
deriving DecidableEq, Repr

namespace CalendarTime

def monthNames : List Text := [
  "Jan", "Feb", "Mar", "Apr", "May", "Jun", "Jul", "Aug", "Sep", "Oct", "Nov", "Dec"]

/-- Decimal digits with zeros in front, up to a width. -/
def padded (width n : Nat) : Text :=
  List.replicate (width - (decimal n).length) '0' ++ decimal n

def clock (c : CalendarTime) : Text :=
  joinWith ":" [padded 2 c.hour, padded 2 c.minute, padded 2 c.second]

/-- The time as banners show it, such as `Mar 04 10:12:45 2025`. -/
def inBanner (c : CalendarTime) : Text :=
  (monthNames[c.month - 1]?.getD []) ++ " " ++ padded 2 c.day ++ " " ++ c.clock ++ " " ++
    decimalInt c.year

/-- The time as log lines show it, such as `2025-03-04T10:12:45.120Z`. -/
def inLog (c : CalendarTime) : Text :=
  decimalInt c.year ++ "-" ++ padded 2 c.month ++ "-" ++ padded 2 c.day ++ "T" ++ c.clock ++ "." ++
    padded 3 c.millisecond ++ "Z"

end CalendarTime

def Stamp.ofTime (version : Text) (c : CalendarTime) : Stamp := ⟨version, c.inBanner, c.year⟩

end Gateware
