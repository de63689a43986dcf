import Mathlib.Data.List.Basic
import Mathlib.Data.Option.Basic
import Mathlib.Logic.Function.Basic

/-!
# Maps whose entries grow old

A `TimedMap` gives a key the value that came in last and the time at which it
came. `expire` takes away what has been there for longer than a lifetime.

`ofLog` reads such a map off a log of all that ever came in. Entries that are
taken away early or late make no difference to it: putting and expiring, in
whatever order the clock allows, is the same as reading the log
(`ofLog_append`, `expire_ofLog`).
-/

namespace UchiNetworks.Lib

variable {κ ν : Type} [DecidableEq κ]

/-- A value that came in under a key, at a time. -/
structure Stamped (κ ν : Type) where
  key : κ
  value : ν
  time : Nat
  deriving DecidableEq

/-- What came in last under a key. -/
def latest (log : List (Stamped κ ν)) (k : κ) : Option (Stamped κ ν) :=
  (log.filter fun s => s.key = k).getLast?

theorem latest_append (log : List (Stamped κ ν)) (s : Stamped κ ν) (k : κ) :
    latest (log ++ [s]) k = if s.key = k then some s else latest log k := by
  by_cases hk : s.key = k
  · simp [latest, hk]
  · simp [latest, hk]

/-- A map from keys to values with the time at which they came. -/
abbrev TimedMap (κ ν : Type) := κ → Option (ν × Nat)

namespace TimedMap

def put (m : TimedMap κ ν) (k : κ) (v : ν) (now : Nat) : TimedMap κ ν :=
  Function.update m k (some (v, now))

/-- Take away what is older than a lifetime. -/
def expire (life now : Nat) (m : TimedMap κ ν) : TimedMap κ ν :=
  fun k => (m k).filter fun e => now ≤ e.2 + life

/-- What there is at a time of all that came in. -/
def ofLog (life now : Nat) (log : List (Stamped κ ν)) : TimedMap κ ν :=
  expire life now fun k => (latest log k).map fun s => (s.value, s.time)

theorem put_apply (m : TimedMap κ ν) (k : κ) (v : ν) (now : Nat) (k' : κ) :
    m.put k v now k' = if k' = k then some (v, now) else m k' := by
  by_cases hk : k' = k
  · rw [hk, if_pos rfl, put, Function.update_self]
  · rw [if_neg hk, put, Function.update_of_ne hk]

omit [DecidableEq κ] in
theorem expire_expire {life now now' : Nat} (h : now ≤ now') (m : TimedMap κ ν) :
    expire life now' (expire life now m) = expire life now' m := by
  funext k
  simp only [expire, Option.filter_filter]
  congr 1
  funext e
  by_cases hlive : now' ≤ e.2 + life
  · simp [hlive, Nat.le_trans h hlive]
  · simp [hlive]

/-- Time passes. -/
theorem expire_ofLog {life now now' : Nat} (h : now ≤ now') (log : List (Stamped κ ν)) :
    expire life now' (ofLog life now log) = ofLog life now' log := expire_expire h _

/-- Something comes in. -/
theorem ofLog_append (life : Nat) (log : List (Stamped κ ν)) (k : κ) (v : ν) (now : Nat) :
    ofLog life now (log ++ [{ key := k, value := v, time := now }]) =
      (ofLog life now log).put k v now := by
  funext k'
  rw [put_apply]
  by_cases hk : k' = k
  · subst hk
    simp [ofLog, expire, latest_append]
  · simp [ofLog, expire, latest_append, hk, Ne.symm hk]

/-- What a key of the log gives. -/
theorem ofLog_eq_some {life now : Nat} {log : List (Stamped κ ν)} {k : κ} {e : ν × Nat} :
    ofLog life now log k = some e ↔
      ∃ s, latest log k = some s ∧ now ≤ s.time + life ∧ (s.value, s.time) = e := by
  simp only [ofLog, expire, Option.filter_eq_some_iff, Option.map_eq_some_iff, decide_eq_true_eq]
  constructor
  · intro h
    obtain ⟨⟨s, hs, rfl⟩, hlive⟩ := h
    exact ⟨s, hs, hlive, rfl⟩
  · intro h
    obtain ⟨s, hs, hlive, rfl⟩ := h
    exact ⟨⟨s, hs, rfl⟩, hlive⟩

end TimedMap

end UchiNetworks.Lib
