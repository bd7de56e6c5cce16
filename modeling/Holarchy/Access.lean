/-!
# Access

What a caller may want to do with a holon, and what a holon's base state permits.
-/
namespace Holarchy

inductive Access where
  | read
  | write
  | commit
  | clone
  | abandon
  deriving DecidableEq

namespace Access

def toString : Access → String
  | .read => "Read"
  | .write => "Write"
  | .commit => "Commit"
  | .clone => "Clone"
  | .abandon => "Abandon"

def all : List Access := [.read, .write, .commit, .clone, .abandon]

/-- The access that never changes a holon. -/
def isPassive : Access → Bool
  | .read | .clone => true
  | _ => false

end Access

inductive HolonState where
  | mutable
  | immutable
  deriving DecidableEq

namespace HolonState

def toString : HolonState → String
  | .mutable => "Mutable"
  | .immutable => "Immutable"

/-- What the base state alone permits: a frozen holon may be read, cloned and committed. -/
def allows : HolonState → Access → Bool
  | .mutable, _ => true
  | .immutable, .read | .immutable, .clone | .immutable, .commit => true
  | .immutable, _ => false

end HolonState

end Holarchy
