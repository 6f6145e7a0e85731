/-!
# How strict a monitor is
-/

namespace InfoFlow

/-- How strictly a monitor checks the use that is made of it. -/
structure Policy where
  /-- A write to an unregistered field or array element registers it first. -/
  autoRegister : Bool := true
  /-- The greatest number of branch scopes open in a frame at once. -/
  maxDepth : Option UInt64 := none
  /-- A frame may close only when all its branch scopes are closed. -/
  balancedClose : Bool := true
deriving DecidableEq, Repr

namespace Policy

/-- Every heap slot has to be registered before it is written. -/
def strict : Policy := { autoRegister := false }

def isDefault (policy : Policy) : Bool := policy = {}

def isStrict (policy : Policy) : Bool := policy = strict

end Policy

end InfoFlow
