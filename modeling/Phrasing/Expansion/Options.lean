import Phrasing.Text

/-!
# `Phrasing.Expansion.Options` — choices of whoever asks for an expansion

A limit on the substitutions of variables along one branch, and what to do about variables that
have no value.
-/

namespace Phrasing

/-- What to do about a variable without a value. -/
inductive UndefinedPolicy
  /-- Take its value as empty. -/
  | empty
  /-- Stop the expansion. -/
  | strict
deriving Repr, DecidableEq

/-- Name of a policy in reports. -/
def UndefinedPolicy.name : UndefinedPolicy → String
  | empty => "empty"
  | strict => "strict"

/-- The limit of substitutions where none is asked for. -/
def defaultDepthLimit : Nat := 1000

/-- Options of an expansion. -/
structure Options where
  /-- How many substitutions a branch may take. -/
  depthLimit : Nat := defaultDepthLimit
  undefined : UndefinedPolicy := .empty
deriving Repr, DecidableEq

namespace Options

/-- The options with values required or not. -/
def withStrict (options : Options) (strict : Bool) : Options :=
  { options with undefined := if strict then .strict else .empty }

/-- The options with another limit, if one is given. -/
def withDepthLimit (options : Options) : Option Nat → Options
  | some limit => { options with depthLimit := limit }
  | none => options

/-- The options asked for by a flag and an optional limit. -/
def ofRequest (strict : Bool) (limit : Option Nat) : Options :=
  (({} : Options).withStrict strict).withDepthLimit limit

end Options

end Phrasing
