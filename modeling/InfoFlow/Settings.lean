import InfoFlow.Policy

/-!
# Settings of the replay tool
-/

namespace InfoFlow

/-- The chains of levels that the tool can replay over. -/
inductive Chain where
  | two
  | three
deriving DecidableEq, Repr

namespace Chain

def name : Chain → String
  | two => "two"
  | three => "three"

def ofName? : String → Option Chain
  | "two" => some two
  | "three" => some three
  | _ => none

end Chain

/-- What a configuration file can say. -/
structure Settings where
  lattice : Chain := .two
  keepGoing : Bool := false
  monitor : Policy := {}
deriving DecidableEq, Repr

def Settings.isDefault (settings : Settings) : Bool := settings = {}

end InfoFlow
