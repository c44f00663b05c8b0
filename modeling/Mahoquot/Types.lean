import Mathlib.Algebra.Ring.Int.Defs
import Mathlib.Algebra.Ring.Nat
import Mathlib.Data.List.Basic

/-! Shared vocabulary: session hints, account health and routing strategies. -/

set_option autoImplicit false

namespace Mahoquot

structure SessionHint where
  affinityKey : Option String
deriving Repr, DecidableEq, Inhabited

inductive Health where
  | available
  | cooldown (untilUnixMs : Int)
  | authFailed
  | disabled
deriving Repr, DecidableEq, Inhabited

def Health.isAvailable (health : Health) (nowUnixMs : Int) : Bool :=
  match health with
  | .available => true
  | .cooldown untilUnixMs => decide (untilUnixMs ≤ nowUnixMs)
  | .authFailed | .disabled => false

inductive Strategy where
  | strictRoundRobin
  | fillFirst
deriving Repr, DecidableEq, Inhabited

/-- What selection observes of a pool member: the `PoolMember` trait. -/
structure PoolMember where
  id : String
  health : Health
deriving Repr, DecidableEq, Inhabited

def wrappingAdd (left right : Nat) : Nat := (left + right) % 2 ^ 64

theorem wrappingAdd_of_lt {left right : Nat} (small : left + right < 2 ^ 64) : wrappingAdd left right = left + right :=
  Nat.mod_eq_of_lt small

def i64Min : Int := -(2 ^ 63)
def i64Max : Int := 2 ^ 63 - 1

def saturatingAdd (left right : Int) : Int := max i64Min (min i64Max (left + right))

def saturatingSub (left right : Int) : Int := max i64Min (min i64Max (left - right))

def saturatingMul (left right : Int) : Int := max i64Min (min i64Max (left * right))

end Mahoquot
