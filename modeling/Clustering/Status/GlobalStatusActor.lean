/-
Clustering.Status.GlobalStatusActor — the handlers of
`GlobalStatusActor.scala`.

Three maps: the monitors that are polled, with their timers, the last
attributes of each, and for each node how many machines are provisioned
there. The last is kept by two messages of the `VMActor`s alone; the end
of a monitor touches the other two.

`Map` is a list without repeated keys. A counter is an `Int` of 32 bits.
-/
import Clustering.Provisioning.Messages
import Mathlib.Algebra.Ring.Int.Defs
import Mathlib.Data.List.Basic

namespace Clustering.Status

open Actors Actors.Handler
open Clustering.Provisioning (SystemAttributes)

/-- The messages of the `GlobalStatusActor`. References are numbers. -/
inductive StatusMessage where
  | registerNodeMonitorActor (actor : ℕ)
  | registerVmActor (address : String)
  | deregisterNodeMonitorActor (actor : ℕ)
  | deregisterVmActor (address : String)
  | systemAttributes (attributes : SystemAttributes)
  | terminated (actor : ℕ)
  | getGlobalStatusActor
  | getGlobalSystemAttributes
  | getVMInfos
  | notReadyJet
  deriving DecidableEq, Repr

inductive StatusEffect where
  | watch (actor : ℕ)
  /-- `scheduler.schedule(5 seconds, 5 seconds, nodeMonitorActor, GetSystemAttributes)`. -/
  | schedule (timer : ℕ) (actor : ℕ)
  | cancel (timer : ℕ)
  /-- `sender() ! SetGlobalStatusActor(self)`. -/
  | setGlobalStatusActor
  | globalSystemAttributes (nodeAttributes : List (ℕ × SystemAttributes))
  | vmInfos (nodeVms : List (String × ℤ))
  /-- `scheduleOnceRetry(5 seconds, sender(), any)`. -/
  | scheduleRetry
  deriving DecidableEq, Repr

structure GlobalStatusActor where
  nodeMonitorActors : List (ℕ × ℕ)
  nodeAttributes : List (ℕ × SystemAttributes)
  nodeVms : List (String × ℤ)
  deriving DecidableEq, Repr

/-- `map -= key`. -/
def remove {K V : Type} [DecidableEq K] (key : K) (m : List (K × V)) : List (K × V) :=
  m.filter fun e => e.1 ≠ key

/-- `map += key -> value`. -/
def put {K V : Type} [DecidableEq K] (key : K) (value : V) (m : List (K × V)) : List (K × V) :=
  (key, value) :: remove key m

/-- An `Int` after an addition. -/
def toInt32 (n : ℤ) : ℤ := (n + 2 ^ 31) % 2 ^ 32 - 2 ^ 31

namespace GlobalStatusActor

abbrev Code := Handler GlobalStatusActor StatusEffect Worker.Throwable

def new : GlobalStatusActor := ⟨[], [], []⟩

def handlerRegisterNodeMonitorActor (fresh nodeMonitorActor : ℕ) : Code Unit := do
  perform (.watch nodeMonitorActor)
  perform (.schedule fresh nodeMonitorActor)
  assign fun s => { s with nodeMonitorActors := put nodeMonitorActor fresh s.nodeMonitorActors }

def handlerDeregisterNodeMonitorActor (nodeMonitorActor : ℕ) : Code Unit := do
  match (← fields).nodeMonitorActors.lookup nodeMonitorActor with
  | some cancellable =>
      perform (.cancel cancellable)
      assign fun s => { s with
        nodeMonitorActors := remove nodeMonitorActor s.nodeMonitorActors
        nodeAttributes := remove nodeMonitorActor s.nodeAttributes }
  | none => pure ()

def handlerRegisterVmActor (address : String) : Code Unit := do
  match (← fields).nodeVms.lookup address with
  | some countVms =>
      assign fun s => { s with nodeVms := remove address s.nodeVms }
      assign fun s => { s with nodeVms := put address (toInt32 (countVms + 1)) s.nodeVms }
  | none => assign fun s => { s with nodeVms := put address 1 s.nodeVms }

def handlerDeregisterVmActor (address : String) : Code Unit := do
  match (← fields).nodeVms.lookup address with
  | some countVms =>
      if countVms > 0 then
        assign fun s => { s with nodeVms := remove address s.nodeVms }
        assign fun s => { s with nodeVms := put address (countVms - 1) s.nodeVms }
      else pure ()
  | none => pure ()

def handlerSystemAttributes (sender : ℕ) (attributes : SystemAttributes) : Code Unit :=
  assign fun s => { s with nodeAttributes := put sender attributes s.nodeAttributes }

/-- `receive`. `fresh` is the number of a timer the handler starts. -/
def receive (fresh sender : ℕ) (m : StatusMessage) : Code Unit := do
  match m with
  | .registerNodeMonitorActor actor => handlerRegisterNodeMonitorActor fresh actor
  | .registerVmActor address => handlerRegisterVmActor address
  | .deregisterNodeMonitorActor actor => handlerDeregisterNodeMonitorActor actor
  | .deregisterVmActor address => handlerDeregisterVmActor address
  | .systemAttributes attributes => handlerSystemAttributes sender attributes
  | .terminated actor => handlerDeregisterNodeMonitorActor actor
  | .getGlobalStatusActor => perform .setGlobalStatusActor
  | .getGlobalSystemAttributes => perform (.globalSystemAttributes (← fields).nodeAttributes)
  | .getVMInfos => perform (.vmInfos (← fields).nodeVms)
  | .notReadyJet => perform .scheduleRetry

/-! ## The counters -/

/-- The counter of a node; a node without an entry has none. -/
def count (s : GlobalStatusActor) (address : String) : ℤ := (s.nodeVms.lookup address).getD 0

variable {s : GlobalStatusActor} {fresh sender : ℕ} {m : StatusMessage}

theorem lookup_remove {K V : Type} [DecidableEq K] (key k : K) (m : List (K × V)) :
    (remove key m).lookup k = if k = key then none else m.lookup k := by
  induction m with
  | nil => simp [remove]
  | cons e m ih =>
    obtain ⟨k', v⟩ := e
    by_cases h : k' = key
    · have hdrop : remove key ((k', v) :: m) = remove key m := by simp [remove, h]
      rw [hdrop, ih, h]
      split
      · rfl
      · rename_i hk
        rw [List.lookup_cons, beq_eq_false_iff_ne.mpr hk]
    · have hkeep : remove key ((k', v) :: m) = (k', v) :: remove key m := by simp [remove, h]
      rw [hkeep, List.lookup_cons, List.lookup_cons, ih]
      by_cases hk : k = k'
      · subst hk
        simp [h]
      · rw [beq_eq_false_iff_ne.mpr hk]

theorem lookup_put {K V : Type} [DecidableEq K] (key k : K) (v : V) (m : List (K × V)) :
    (put key v m).lookup k = if k = key then some v else m.lookup k := by
  rw [put, List.lookup_cons, lookup_remove]
  by_cases hk : k = key
  · simp [hk]
  · rw [beq_eq_false_iff_ne.mpr hk, if_neg hk, if_neg hk]

theorem toInt32_of_lt {n : ℤ} (h0 : 0 ≤ n) (h : n < 2 ^ 31) : toInt32 n = n := by
  unfold toInt32
  omega

/-- A registration adds one to the counter of its node. -/
theorem count_registerVmActor (address a : String) (h : s.count address < 2 ^ 31 - 1)
    (h0 : 0 ≤ s.count address) :
    (receive fresh sender (.registerVmActor address) s).fields.count a =
      s.count a + if a = address then 1 else 0 := by
  unfold count at *
  cases hl : s.nodeVms.lookup address with
  | none =>
    simp only [receive, handlerRegisterVmActor, bind_apply, fields_apply, Outcome.andThen_ok, hl,
      assign_apply, lookup_put]
    split
    · rename_i ha
      simp [ha, hl]
    · simp
  | some n =>
    rw [hl, Option.getD_some] at h h0
    simp only [receive, handlerRegisterVmActor, bind_apply, fields_apply, Outcome.andThen_ok, hl,
      assign_apply, lookup_put, lookup_remove, toInt32_of_lt (by omega : 0 ≤ n + 1) (by omega)]
    split
    · rename_i ha
      simp [ha, hl]
    · simp

/-- A deregistration takes one from the counter of its node, if there is one. -/
theorem count_deregisterVmActor (address a : String) (h0 : 0 < s.count address) :
    (receive fresh sender (.deregisterVmActor address) s).fields.count a =
      s.count a - if a = address then 1 else 0 := by
  unfold count at *
  cases hl : s.nodeVms.lookup address with
  | none =>
    rw [hl] at h0
    exact absurd h0 (by simp)
  | some n =>
    rw [hl, Option.getD_some] at h0
    simp only [receive, handlerDeregisterVmActor, bind_apply, fields_apply, Outcome.andThen_ok, hl,
      if_pos h0, assign_apply, lookup_put, lookup_remove]
    split
    · rename_i ha
      simp [ha, hl]
    · simp

end GlobalStatusActor

end Clustering.Status
