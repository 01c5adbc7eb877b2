import SequenceDiagram.Config.Basic

namespace SequenceDiagram

/-!
# Settings

A configuration file is a list of settings, whatever its format.

`LayoutConfig.ofSettings?` applies them to the default configuration. A key that is not known sets
nothing; one that is must have a value of its kind, and may be set only once.
-/

/-- A key, and what its value is when read as a size and when read as a count. -/
structure Setting where
  key : String
  size : Option Binary32
  count : Option Nat
  deriving DecidableEq

namespace Setting

/-- The key sets something. -/
def isKnown (key : String) : Bool := (Size.ofKey? key).isSome || key == capacityKey

/-- The configuration after the setting. -/
def appliedTo (config : LayoutConfig) (s : Setting) : Option LayoutConfig :=
  match Size.ofKey? s.key with
  | some size => s.size.map (config.set size)
  | none =>
    if s.key = capacityKey then s.count.map fun n => { config with measureCacheCapacity := n }
    else some config

/-- The largest count is that of 64 bits. -/
def countOfInt? (n : Int) : Option Nat :=
  if 0 ≤ n ∧ n < Nat.pow 2 64 then some n.toNat else none

end Setting

/-- The configuration that a file sets. -/
def LayoutConfig.ofSettings? (settings : List Setting) : Option LayoutConfig :=
  if ((settings.map (·.key)).filter Setting.isKnown).Nodup then
    settings.foldlM Setting.appliedTo LayoutConfig.standard
  else none

end SequenceDiagram
