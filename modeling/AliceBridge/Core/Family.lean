import AliceBridge.Lib.Words

/-! # Family profiles

`profile.rs` and `mode.rs`: the members of the family, the roster that resolves
a name or a spoken alias to one of them, and the conversation modes. -/
namespace AliceBridge.Core.Family
open AliceBridge.Lib.Utf8 AliceBridge.Lib.Words

/-! ## Dates -/

def isLeapYear (year : Int) : Bool := year % 4 == 0 && (year % 100 != 0 || year % 400 == 0)

def daysInMonth (year : Int) (month : Nat) : Nat :=
  if month = 2 then if isLeapYear year then 29 else 28
  else if month ∈ [4, 6, 9, 11] then 30
  else 31

/-- chrono's `NaiveDate`. -/
structure NaiveDate where
  year : Int
  month : Nat
  day : Nat
  valid : 1 ≤ month ∧ month ≤ 12 ∧ 1 ≤ day ∧ day ≤ daysInMonth year month
deriving DecidableEq

/-- `base.years_since`: completed years, none before the first day. -/
def NaiveDate.yearsSince (date base : NaiveDate) : Option Nat :=
  let years := date.year - base.year
  let years :=
    if date.month < base.month ∨ date.month = base.month ∧ date.day < base.day then years - 1
    else years
  if 0 ≤ years then some years.toNat else none

/-- `Display`: `YYYY-MM-DD`, with a sign outside of the years 0 to 9999. -/
def NaiveDate.display (date : NaiveDate) : Text :=
  let year :=
    if 0 ≤ date.year ∧ date.year ≤ 9999 then padded 4 date.year.toNat
    else (if date.year < 0 then '-' else '+') :: padded 4 date.year.natAbs
  year ++ ['-'] ++ padded 2 date.month ++ ['-'] ++ padded 2 date.day

/-! ## Members and modes -/

inductive ProfileRole where
  | adult
  | child
deriving DecidableEq, Repr

structure Profile where
  name : Text
  aliases : List Text
  birthday : Option NaiveDate
  role : ProfileRole
  persona : Text
deriving DecidableEq

def Profile.ageOn (profile : Profile) (today : NaiveDate) : Option Nat :=
  profile.birthday.bind today.yearsSince

structure Mode where
  name : Text
  triggers : List Text
  prompt : Text
deriving DecidableEq, Repr

/-- The members, and the one who speaks before anyone is introduced. -/
structure FamilyRoster where
  profiles : List Profile
  defaultIndex : Fin profiles.length

/-- `FamilyRoster::new`: no roster without its default profile. -/
def FamilyRoster.new (profiles : List Profile) (defaultProfile : Text) : Option FamilyRoster :=
  if h : profiles.findIdx (fun p => p.name == defaultProfile) < profiles.length then
    some ⟨profiles, ⟨_, h⟩⟩
  else none

def FamilyRoster.get (roster : FamilyRoster) (name : Text) : Option Profile :=
  roster.profiles.find? fun p => p.name == name

/-- Matches a spoken, already-normalized name or alias. -/
def FamilyRoster.findByAlias (roster : FamilyRoster) (spoken : Text) : Option Profile :=
  let spoken := trim spoken
  roster.profiles.find? fun p => toLowercase p.name == spoken || p.aliases.any (· == spoken)

def FamilyRoster.defaultProfile (roster : FamilyRoster) : Profile :=
  roster.profiles.get roster.defaultIndex

end AliceBridge.Core.Family
