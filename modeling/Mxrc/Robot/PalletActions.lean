import Mxrc.Lib.Runs
import Mxrc.Action.ActionExecutor

/-!
# The pallet actions

`MoveToPositionAction`, `PickPalletAction` and `PlacePalletAction` on one
context. A second execution of an object throws, unless its first one threw
before it began. `arrival` is the number of looks at the flag before the cancel.
Progress is left out, and how doubles are printed and read is a parameter.
-/

namespace Mxrc.Robot
open Mxrc.Lib
open Mxrc.Action (ActionStatus)

/-- A variable holds a text or a value of another type, which is `none`. -/
structure ExecutionContext where
  entries : AList (fun _ : String => Option String)

namespace ExecutionContext

def has (c : ExecutionContext) (key : String) : Bool := (c.entries.lookup key).isSome

def get (c : ExecutionContext) (key : String) : String := (c.entries.lookup key).join.getD ""

def set (c : ExecutionContext) (key value : String) : ExecutionContext :=
  ⟨c.entries.insert key (some value)⟩

variable (c : ExecutionContext) {key key' : String} (value : String)

@[simp] lemma get_set (key : String) : (c.set key value).get key = value := by
  simp [get, set]

@[simp] lemma get_set_of_ne (h : key' ≠ key) : (c.set key value).get key' = c.get key' := by
  simp [get, set, AList.lookup_insert_ne h]

@[simp] lemma has_set (key : String) : (c.set key value).has key = true := by
  simp [has, set]

@[simp] lemma has_set_of_ne (h : key' ≠ key) : (c.set key value).has key' = c.has key' := by
  simp [has, set, AList.lookup_insert_ne h]

lemma get_of_not_has {c : ExecutionContext} (h : c.has key = false) : c.get key = "" := by
  have hnone : c.entries.lookup key = none := by simpa [has] using h
  rw [get, hnone]
  rfl

end ExecutionContext

/-- Printing and reading doubles; reading throws if the text begins with no number. -/
structure DoubleText (D : Type) where
  toString : D → String
  stod : String → Except String D

inductive PalletWork (D : Type)
  | moveToPosition (targetX targetY targetTheta : D)
  | pickPallet (palletId : { id : String // id ≠ "" })
  | placePallet

structure PalletAction (D : Type) where
  id : String
  work : PalletWork D
  status : ActionStatus
  cancelled : Bool

inductive Completion
  | moved (x y : String)
  | picked (pallet : String)
  | placed (pallet : String)
deriving DecidableEq

inductive Outcome
  | threw (what : String)
  | cancelled
  | completed (c : Completion)
deriving DecidableEq

def Outcome.appendTo (log : List Completion) : Outcome → List Completion
  | .completed c => log ++ [c]
  | _ => log

namespace PalletAction
variable {D : Type}

def seesCancel (a : PalletAction D) (checks : ℕ) (arrival : Option ℕ) : Bool :=
  a.cancelled || (List.range checks).any fun k => arrival.any (· ≤ k)

def readNumber (lib : DoubleText D) (c : ExecutionContext) (key : String) :
    Except String (Option D) :=
  if c.has key then some <$> lib.stod (c.get key) else .ok none

def readPosition (lib : DoubleText D) (c : ExecutionContext) : Except String Unit := do
  let _ ← readNumber lib c "current_x"
  let _ ← readNumber lib c "current_y"
  let _ ← readNumber lib c "current_theta"

def move (lib : DoubleText D) (x y theta : D) (a : PalletAction D) (arrival : Option ℕ)
    (c : ExecutionContext) : Outcome × ActionStatus × ExecutionContext :=
  if a.status ≠ .pending then (.threw ("Action already executed: " ++ a.id), a.status, c)
  else
    match readPosition lib c with
    | .error what => (.threw what, .running, c)
    | .ok _ =>
      -- Eleven looks in the loop and one behind it.
      if a.seesCancel 12 arrival then (.cancelled, .cancelled, c)
      else (.completed (.moved (lib.toString x) (lib.toString y)), .completed,
        ((c.set "current_x" (lib.toString x)).set "current_y" (lib.toString y)).set
          "current_theta" (lib.toString theta))

def pick (palletId : String) (a : PalletAction D) (arrival : Option ℕ) (c : ExecutionContext) :
    Outcome × ActionStatus × ExecutionContext :=
  if a.status ≠ .pending then (.threw ("Action already executed: " ++ a.id), a.status, c)
  else if c.has "picked_pallet_id" ∧ c.get "picked_pallet_id" ≠ "" then
    (.threw ("Already holding pallet: " ++ c.get "picked_pallet_id"), a.status, c)
  else if a.seesCancel 2 arrival then (.cancelled, .cancelled, c)
  else (.completed (.picked palletId), .completed,
    (c.set "picked_pallet_id" palletId).set "gripper_closed" "true")

def recordPlace (current last : String) (c : ExecutionContext) : ExecutionContext :=
  if c.has current then c.set last (c.get current) else c

def placed (c : ExecutionContext) : ExecutionContext :=
  let released := (c.set "picked_pallet_id" "").set "gripper_closed" "false"
  recordPlace "current_y" "last_place_y" (recordPlace "current_x" "last_place_x" released)

def place (a : PalletAction D) (arrival : Option ℕ) (c : ExecutionContext) :
    Outcome × ActionStatus × ExecutionContext :=
  if a.status ≠ .pending then (.threw ("Action already executed: " ++ a.id), a.status, c)
  else if !c.has "picked_pallet_id" ∨ c.get "picked_pallet_id" = "" then
    (.threw "No pallet held", a.status, c)
  else if a.seesCancel 2 arrival then (.cancelled, .cancelled, c)
  else (.completed (.placed (c.get "picked_pallet_id")), .completed, placed c)

def execute (lib : DoubleText D) (a : PalletAction D) (arrival : Option ℕ)
    (c : ExecutionContext) : Outcome × ActionStatus × ExecutionContext :=
  match a.work with
  | .moveToPosition x y theta => a.move lib x y theta arrival c
  | .pickPallet palletId => a.pick palletId arrival c
  | .placePallet => a.place arrival c

section
variable (lib : DoubleText D) (a : PalletAction D) (arrival : Option ℕ) (c : ExecutionContext)

def Unchanged (r : Outcome × ActionStatus × ExecutionContext) : Prop :=
  (∀ e, r.1 ≠ .completed e) ∧ r.2.2 = c

lemma move_cases (x y theta : D) :
    Unchanged c (a.move lib x y theta arrival c) ∨
      (a.move lib x y theta arrival c).1 =
          .completed (.moved (lib.toString x) (lib.toString y)) ∧
        (a.move lib x y theta arrival c).2.2 =
          ((c.set "current_x" (lib.toString x)).set "current_y" (lib.toString y)).set
            "current_theta" (lib.toString theta) := by
  cases hread : readPosition lib c with
  | error what =>
    simp only [move, hread]
    split_ifs with hst
    · exact .inl ⟨nofun, rfl⟩
    · exact .inl ⟨nofun, rfl⟩
  | ok _ =>
    simp only [move, hread]
    split_ifs with hst hcan
    · exact .inl ⟨nofun, rfl⟩
    · exact .inl ⟨nofun, rfl⟩
    · exact .inr ⟨rfl, rfl⟩

lemma pick_cases (palletId : String) :
    Unchanged c (a.pick palletId arrival c) ∨
      c.get "picked_pallet_id" = "" ∧
        (a.pick palletId arrival c).1 = .completed (.picked palletId) ∧
        (a.pick palletId arrival c).2.2 =
          (c.set "picked_pallet_id" palletId).set "gripper_closed" "true" := by
  rw [pick]
  split_ifs with hst hheld hcan
  · exact .inl ⟨nofun, rfl⟩
  · exact .inl ⟨nofun, rfl⟩
  · exact .inl ⟨nofun, rfl⟩
  · refine .inr ⟨?_, rfl, rfl⟩
    by_contra hne
    cases hhas : c.has "picked_pallet_id" with
    | false => exact hne (ExecutionContext.get_of_not_has hhas)
    | true => exact hheld ⟨hhas, hne⟩

lemma place_cases :
    Unchanged c (a.place arrival c) ∨
      c.get "picked_pallet_id" ≠ "" ∧
        (a.place arrival c).1 = .completed (.placed (c.get "picked_pallet_id")) ∧
        (a.place arrival c).2.2 = placed c := by
  rw [place]
  split_ifs with hst hnone hcan
  · exact .inl ⟨nofun, rfl⟩
  · exact .inl ⟨nofun, rfl⟩
  · exact .inl ⟨nofun, rfl⟩
  · exact .inr ⟨fun hemp => hnone (.inr hemp), rfl, rfl⟩

lemma execute_cases :
    Unchanged c (a.execute lib arrival c) ∨
      (∃ x y theta, (a.execute lib arrival c).1 = .completed (.moved x y) ∧
        (a.execute lib arrival c).2.2 =
          ((c.set "current_x" x).set "current_y" y).set "current_theta" theta) ∨
      (∃ pallet, pallet ≠ "" ∧ c.get "picked_pallet_id" = "" ∧
        (a.execute lib arrival c).1 = .completed (.picked pallet) ∧
        (a.execute lib arrival c).2.2 =
          (c.set "picked_pallet_id" pallet).set "gripper_closed" "true") ∨
      (c.get "picked_pallet_id" ≠ "" ∧
        (a.execute lib arrival c).1 = .completed (.placed (c.get "picked_pallet_id")) ∧
        (a.execute lib arrival c).2.2 = placed c) := by
  rw [execute]
  cases a.work with
  | moveToPosition x y theta =>
    rcases a.move_cases lib arrival c x y theta with h | ⟨hdone, hctx⟩
    · exact .inl h
    · exact .inr (.inl ⟨_, _, _, hdone, hctx⟩)
  | pickPallet palletId =>
    rcases a.pick_cases arrival c palletId with h | ⟨hfree, hdone, hctx⟩
    · exact .inl h
    · exact .inr (.inr (.inl ⟨palletId, palletId.2, hfree, hdone, hctx⟩))
  | placePallet =>
    rcases a.place_cases arrival c with h | ⟨hheld, hdone, hctx⟩
    · exact .inl h
    · exact .inr (.inr (.inr ⟨hheld, hdone, hctx⟩))

end

section
variable (c : ExecutionContext)

lemma get_recordPlace_of_ne {current last key : String} (h : key ≠ last) :
    (recordPlace current last c).get key = c.get key := by
  rw [recordPlace]
  split_ifs
  · exact c.get_set_of_ne _ h
  · rfl

lemma has_recordPlace_of_ne {current last key : String} (h : key ≠ last) :
    (recordPlace current last c).has key = c.has key := by
  rw [recordPlace]
  split_ifs
  · exact c.has_set_of_ne _ h
  · rfl

lemma get_recordPlace {c : ExecutionContext} {current last : String} (h : c.has current = true) :
    (recordPlace current last c).get last = c.get current := by
  rw [recordPlace, if_pos h, ExecutionContext.get_set]

lemma get_placed {key : String} (hx : key ≠ "last_place_x") (hy : key ≠ "last_place_y") :
    (placed c).get key =
      ((c.set "picked_pallet_id" "").set "gripper_closed" "false").get key := by
  rw [placed, get_recordPlace_of_ne _ hy, get_recordPlace_of_ne _ hx]

lemma has_placed {key : String} (hx : key ≠ "last_place_x") (hy : key ≠ "last_place_y") :
    (placed c).has key =
      ((c.set "picked_pallet_id" "").set "gripper_closed" "false").has key := by
  rw [placed, has_recordPlace_of_ne _ hy, has_recordPlace_of_ne _ hx]

lemma get_placed_position {c : ExecutionContext} (hx : c.has "current_x" = true)
    (hy : c.has "current_y" = true) :
    (placed c).get "last_place_x" = c.get "current_x" ∧
      (placed c).get "last_place_y" = c.get "current_y" := by
  rw [placed, get_recordPlace_of_ne _ (by decide), get_recordPlace (by simp [hx]),
    get_recordPlace (by rw [has_recordPlace_of_ne _ (by decide)]; simp [hy]),
    get_recordPlace_of_ne _ (by decide)]
  simp

end
end PalletAction

structure PalletRun (D : Type) where
  context : ExecutionContext
  actions : ℕ → PalletAction D
  completions : List Completion

inductive PalletStep
  | execute (i : ℕ) (arrival : Option ℕ)
  | cancel (i : ℕ)

namespace PalletRun
variable {D : Type} (lib : DoubleText D)

def outcome (s : PalletRun D) (i : ℕ) (arrival : Option ℕ) : Outcome :=
  ((s.actions i).execute lib arrival s.context).1

def next (s : PalletRun D) : PalletStep → Option (PalletRun D)
  | .execute i arrival =>
    let r := (s.actions i).execute lib arrival s.context
    some {
      context := r.2.2
      actions := Function.update s.actions i { s.actions i with
        status := r.2.1, cancelled := (s.actions i).cancelled || arrival.isSome }
      completions := r.1.appendTo s.completions }
  | .cancel i => some { s with
      actions := Function.update s.actions i { s.actions i with cancelled := true } }

def lastHandled (log : List Completion) : Option Completion :=
  (log.filter fun
    | .moved _ _ => false
    | _ => true).getLast?

def lastMoved (log : List Completion) : Option (String × String) :=
  (log.filterMap fun
    | .moved x y => some (x, y)
    | _ => none).getLast?

/-- A pick comes first or after a place; a place comes after the pick of its pallet. -/
def Alternates (before : List Completion) : Completion → Prop
  | .moved _ _ => True
  | .picked _ => ∀ pallet, lastHandled before ≠ some (.picked pallet)
  | .placed pallet => lastHandled before = some (.picked pallet)

def held (log : List Completion) : String :=
  match lastHandled log with
  | some (.picked pallet) => pallet
  | _ => ""

structure Inv (s : PalletRun D) : Prop where
  alternates : EveryEntry Alternates s.completions
  named : ∀ pallet, .picked pallet ∈ s.completions → pallet ≠ ""
  held : s.context.get "picked_pallet_id" = held s.completions
  gripper : s.context.get "gripper_closed" = "true" ↔ s.context.get "picked_pallet_id" ≠ ""
  position : ∀ x y, lastMoved s.completions = some (x, y) →
    s.context.has "current_x" ∧ s.context.get "current_x" = x ∧
      s.context.has "current_y" ∧ s.context.get "current_y" = y

section
variable (log : List Completion)

lemma lastHandled_moved (x y : String) : lastHandled (log ++ [.moved x y]) = lastHandled log := by
  simp [lastHandled]

lemma lastHandled_picked (pallet : String) :
    lastHandled (log ++ [.picked pallet]) = some (.picked pallet) := by
  simp [lastHandled]

lemma lastHandled_placed (pallet : String) :
    lastHandled (log ++ [.placed pallet]) = some (.placed pallet) := by
  simp [lastHandled]

lemma lastMoved_moved (x y : String) : lastMoved (log ++ [.moved x y]) = some (x, y) := by
  simp [lastMoved]

lemma lastMoved_picked (pallet : String) :
    lastMoved (log ++ [.picked pallet]) = lastMoved log := by
  simp [lastMoved]

lemma lastMoved_placed (pallet : String) :
    lastMoved (log ++ [.placed pallet]) = lastMoved log := by
  simp [lastMoved]

end

section
variable {lib} {s s' : PalletRun D}

lemma mem_of_lastHandled {log : List Completion} {e : Completion}
    (h : lastHandled log = some e) : e ∈ log :=
  List.mem_of_mem_filter (List.mem_of_getLast? h)

lemma lastHandled_of_held {log : List Completion} (h : held log ≠ "") :
    lastHandled log = some (.picked (held log)) := by
  rw [held] at h ⊢
  split at h
  next pallet hlast => rw [hlast]
  next => exact absurd rfl h

lemma Inv.moved (h : Inv s) {x y theta : String}
    (hctx : s'.context =
      ((s.context.set "current_x" x).set "current_y" y).set "current_theta" theta)
    (hlog : s'.completions = s.completions ++ [.moved x y]) : Inv s' := by
  constructor
  · rw [hlog, everyEntry_append_singleton]
    exact ⟨h.alternates, trivial⟩
  · intro pallet hpallet
    rw [hlog] at hpallet
    exact h.named pallet (by simpa using hpallet)
  · rw [hctx, hlog, PalletRun.held, lastHandled_moved, ← PalletRun.held, ← h.held]
    simp
  · rw [hctx]
    simpa using h.gripper
  · intro x' y' hmov
    rw [hlog, lastMoved_moved] at hmov
    cases hmov
    rw [hctx]
    simp

lemma Inv.picked (h : Inv s) {pallet : String} (hne : pallet ≠ "")
    (hfree : s.context.get "picked_pallet_id" = "")
    (hctx : s'.context =
      (s.context.set "picked_pallet_id" pallet).set "gripper_closed" "true")
    (hlog : s'.completions = s.completions ++ [.picked pallet]) : Inv s' := by
  constructor
  · rw [hlog, everyEntry_append_singleton]
    refine ⟨h.alternates, fun other hoth => ?_⟩
    -- A pallet that is held has a name, and then the pick would have thrown.
    have hname : PalletRun.held s.completions = other := by rw [PalletRun.held, hoth]
    exact h.named other (mem_of_lastHandled hoth) (by rw [← hname, ← h.held, hfree])
  · intro other hoth
    rw [hlog, List.mem_append, List.mem_singleton] at hoth
    rcases hoth with hoth | hoth
    · exact h.named other hoth
    · cases hoth
      exact hne
  · rw [hctx, hlog, PalletRun.held, lastHandled_picked]
    simp
  · rw [hctx]
    simpa using hne
  · intro x y hmov
    rw [hlog, lastMoved_picked] at hmov
    rw [hctx]
    simpa using h.position x y hmov

lemma Inv.placed (h : Inv s) (hheld : s.context.get "picked_pallet_id" ≠ "")
    (hctx : s'.context = PalletAction.placed s.context)
    (hlog : s'.completions =
      s.completions ++ [.placed (s.context.get "picked_pallet_id")]) : Inv s' := by
  constructor
  · rw [hlog, everyEntry_append_singleton]
    rw [h.held] at hheld ⊢
    exact ⟨h.alternates, lastHandled_of_held hheld⟩
  · intro pallet hpallet
    rw [hlog] at hpallet
    exact h.named pallet (by simpa using hpallet)
  · rw [hctx, hlog, PalletRun.held, lastHandled_placed,
      PalletAction.get_placed _ (by decide) (by decide)]
    simp
  · rw [hctx, PalletAction.get_placed _ (by decide) (by decide),
      PalletAction.get_placed _ (by decide) (by decide)]
    simp
  · intro x y hmov
    rw [hlog, lastMoved_placed] at hmov
    rw [hctx, PalletAction.get_placed _ (by decide) (by decide),
      PalletAction.get_placed _ (by decide) (by decide),
      PalletAction.has_placed _ (by decide) (by decide),
      PalletAction.has_placed _ (by decide) (by decide)]
    simpa using h.position x y hmov

lemma Inv.step (h : Inv s) {l : PalletStep} (hn : next lib s l = some s') : Inv s' := by
  cases l with
  | cancel i =>
    cases hn
    exact ⟨h.alternates, h.named, h.held, h.gripper, h.position⟩
  | execute i arrival =>
    simp only [next, Option.some.injEq] at hn
    subst hn
    rcases (s.actions i).execute_cases lib arrival s.context with
      ⟨hnot, hctx⟩ | ⟨x, y, theta, hdone, hctx⟩ | ⟨pallet, hne, hfree, hdone, hctx⟩ |
        ⟨hheld, hdone, hctx⟩
    · have hlog : ((s.actions i).execute lib arrival s.context).1.appendTo s.completions =
          s.completions := by
        cases hout : ((s.actions i).execute lib arrival s.context).1 with
        | completed e => exact absurd hout (hnot e)
        | threw what => rfl
        | cancelled => rfl
      rw [hlog, hctx]
      exact ⟨h.alternates, h.named, h.held, h.gripper, h.position⟩
    · exact h.moved hctx (by rw [hdone]; rfl)
    · exact h.picked hne hfree hctx (by rw [hdone]; rfl)
    · exact h.placed hheld hctx (by rw [hdone]; rfl)

lemma Inv.start {context : ExecutionContext} (hpallet : context.get "picked_pallet_id" = "")
    (hgripper : context.has "gripper_closed" = false) (actions : ℕ → PalletAction D) :
    Inv (⟨context, actions, []⟩ : PalletRun D) where
  alternates := everyEntry_nil _
  named := by simp
  held := hpallet
  gripper := by
    rw [ExecutionContext.get_of_not_has hgripper, hpallet]
    simp
  position := by simp [lastMoved]

end

/-- An execution that throws or is cancelled leaves the context; a completed place records the
position of the last move. -/
structure StepFacts (s s' : PalletRun D) (outcome : Outcome) : Prop where
  unchanged : (∀ e, outcome ≠ .completed e) → s'.context = s.context
  recorded : ∀ pallet x y, outcome = .completed (.placed pallet) →
    lastMoved s.completions = some (x, y) →
      s'.context.get "last_place_x" = x ∧ s'.context.get "last_place_y" = y

lemma stepFacts_execute {s s' : PalletRun D} (h : Inv s) {i : ℕ} {arrival : Option ℕ}
    (hn : next lib s (.execute i arrival) = some s') :
    StepFacts s s' (s.outcome lib i arrival) := by
  have hctx' : s'.context = ((s.actions i).execute lib arrival s.context).2.2 := by
    cases hn
    rfl
  rw [outcome]
  rcases (s.actions i).execute_cases lib arrival s.context with
    ⟨hnot, hctx⟩ | ⟨x, y, theta, hdone, -⟩ | ⟨pallet, -, -, hdone, -⟩ | ⟨-, hdone, hctx⟩
  · exact ⟨fun _ => hctx'.trans hctx, fun pallet _ _ hplac => absurd hplac (hnot _)⟩
  · rw [hdone]
    exact ⟨fun hnot => absurd rfl (hnot _), nofun⟩
  · rw [hdone]
    exact ⟨fun hnot => absurd rfl (hnot _), nofun⟩
  · rw [hdone]
    refine ⟨fun hnot => absurd rfl (hnot _), fun pallet x y _ hmov => ?_⟩
    obtain ⟨hhasx, hx, hhasy, hy⟩ := h.position x y hmov
    rw [hctx', hctx, ← hx, ← hy]
    exact PalletAction.get_placed_position hhasx hhasy

/-- From a context without a pallet and a gripper entry, picks and places alternate, each place
releases the pallet of the last pick, and the gripper is closed exactly while a pallet is held. -/
theorem pallet_handling_consistent (lib : DoubleText D) (actions : ℕ → PalletAction D)
    (context : ExecutionContext) (hpallet : context.get "picked_pallet_id" = "")
    (hgripper : context.has "gripper_closed" = false) (ls : List PalletStep) (s : PalletRun D)
    (hrun : Run (next lib) (fun _ _ => True) ⟨context, actions, []⟩ ls s) :
    EveryEntry Alternates s.completions ∧
      (s.context.get "gripper_closed" = "true" ↔ s.context.get "picked_pallet_id" ≠ "") ∧
      ∀ i arrival s', next lib s (.execute i arrival) = some s' →
        StepFacts s s' (s.outcome lib i arrival) := by
  have hinv : Inv s :=
    hrun.invariant Inv (Inv.start hpallet hgripper actions) fun _ _ _ h _ hn => h.step hn
  exact ⟨hinv.alternates, hinv.gripper, fun i arrival s' hn => stepFacts_execute lib hinv hn⟩

theorem pallet_handling_consistent_pick_place :
    ∃ s : PalletRun Unit, s.completions = [.picked "P1", .placed "P1"] ∧
      EveryEntry Alternates s.completions := by
  let lib : DoubleText Unit := ⟨fun _ => "0.000000", fun _ => .ok ()⟩
  let actions : ℕ → PalletAction Unit := fun
    | 0 => ⟨"pick", .pickPallet ⟨"P1", by decide⟩, .pending, false⟩
    | _ => ⟨"place", .placePallet, .pending, false⟩
  have hexec : ∃ s, exec (next lib) (fun _ _ => true) ⟨⟨∅⟩, actions, []⟩
      [.execute 0 none, .execute 1 none] = some s ∧
        s.completions = [.picked "P1", .placed "P1"] := ⟨_, rfl, rfl⟩
  obtain ⟨s, hs, hlog⟩ := hexec
  have hrun := Run.of_exec (G := fun _ _ => True) (fun _ _ _ => trivial) hs
  exact ⟨s, hlog, (pallet_handling_consistent lib actions ⟨∅⟩ rfl rfl _ s hrun).1⟩

end PalletRun
end Mxrc.Robot
