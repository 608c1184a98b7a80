import Orchestrator.Text.Blank
/-!
Severities: how strongly something is wanted to exist and to run. They form a ladder of ascending pressure to run, with
the veto at its top, so that of several demands the highest decides.
-/

namespace Orchestrator

/-- The rungs of the ladder, in ascending order. -/
inductive Severity
  | passive
  /-- Must be available; nothing asks for it to run. -/
  | present
  /-- Must be available and preferably runs. -/
  | eagerPresent
  /-- Preferably runs where it is available. -/
  | eagerPassive
  | mandatory
  | excluded
  deriving DecidableEq, Repr

namespace Severity

instance : Inhabited Severity := ⟨passive⟩

def all : List Severity := [passive, present, eagerPresent, eagerPassive, mandatory, excluded]

def rank : Severity → Nat
  | passive => 0
  | present => 1
  | eagerPresent => 2
  | eagerPassive => 3
  | mandatory => 4
  | excluded => 5

theorem rank_injective {a b : Severity} (h : a.rank = b.rank) : a = b := by
  cases a <;> cases b <;> simp_all [rank]

/-- The stronger of two demands. -/
def join (a b : Severity) : Severity := if a.rank ≤ b.rank then b else a

theorem rank_join (a b : Severity) : (a.join b).rank = max a.rank b.rank := by
  unfold join; split <;> omega

def isExcluded (s : Severity) : Bool := s == excluded

def isEager : Severity → Bool
  | eagerPresent | eagerPassive => true
  | _ => false

def isLazy : Severity → Bool
  | passive | present => true
  | _ => false

/-- The word for a severity in configuration files. -/
def name : Severity → String
  | passive => "passive"
  | present => "present"
  | eagerPresent => "eager_present"
  | eagerPassive => "eager_passive"
  | mandatory => "mandatory"
  | excluded => "excluded"

/-- The severity that a word names exactly. -/
def ofName? (word : String) : Option Severity := all.find? (fun s => s.name == word)

theorem ofName?_name (s : Severity) : ofName? s.name = some s := by
  cases s <;> decide

/-- How a word typed by hand is read: blanks around it, the case of ASCII letters and the choice between dash and
underscore do not matter. -/
def ofText? (text : String) : Option Severity :=
  ofName? (String.ofList ((Text.trim text).toList.map (fun c => if c = '-' then '_' else c.toLower)))

def unknownMessage (text : String) : String := "unknown severity '" ++ text ++ "'"

end Severity

end Orchestrator
