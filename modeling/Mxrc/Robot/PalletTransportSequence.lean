import Mxrc.Lib.Decimal
import Mxrc.Sequence.SequenceEngine

/-!
# The transport sequence

Coordinates are rationals. The targets of the moves are printed as integers: the
fraction is cut off, and the conversion of a coordinate outside the range of
`int` is undefined, so its value is a parameter.
-/

namespace Mxrc.Robot
open Mxrc.Lib
open Mxrc.Sequence (ActionStep)

structure TransportStep extends ActionStep where
  parameters : AList (fun _ : String => String) := ∅

def TransportStep.addParameter (s : TransportStep) (name value : String) : TransportStep :=
  { s with parameters := s.parameters.insert name value }

section
variable (s : TransportStep) {name name' : String} (value : String)

lemma lookup_addParameter (name : String) :
    (s.addParameter name value).parameters.lookup name = some value :=
  AList.lookup_insert _

lemma lookup_addParameter_of_ne (h : name' ≠ name) :
    (s.addParameter name value).parameters.lookup name' = s.parameters.lookup name' :=
  AList.lookup_insert_ne h

end

structure TransportDefinition where
  id : String
  name : String
  steps : List TransportStep
  timeoutMs : ℕ
  maxRetries : ℤ
  retryDelayMs : ℕ
  description : String

/-- `static_cast<int>` of a double; `undefined` is its value outside the range of `int`. -/
def castInt (undefined : ℚ → Int32) (q : ℚ) : Int32 :=
  let whole := q.num.tdiv q.den
  if -2 ^ 31 ≤ whole ∧ whole < 2 ^ 31 then Int32.ofInt whole else undefined q

def intText (n : Int32) : String := String.ofList (Decimal.ofInt n.toInt)

def doubleText (q : ℚ) : String := String.ofList (Decimal.fixed 6 q)

variable (undefined : ℚ → Int32)

def moveStep (actionId : String) (x y : ℚ) : TransportStep :=
  let move : TransportStep := { actionId, actionType := "MoveToPosition", timeout := 30000 }
  ((move.addParameter "target_x" (intText (castInt undefined x))).addParameter "target_y"
    (intText (castInt undefined y))).addParameter "target_theta" "0.0"

def pickStep (palletId : String) : TransportStep :=
  let pick : TransportStep :=
    { actionId := "pick_pallet", actionType := "PickPallet", timeout := 10000 }
  pick.addParameter "pallet_id" palletId

def placeStep : TransportStep :=
  { actionId := "place_pallet", actionType := "PlacePallet", timeout := 10000 }

def buildDefinition (pickupX pickupY placeX placeY : ℚ) (palletId : String) :
    TransportDefinition where
  id := "pallet_transport"
  name := "Pallet Transport Sequence"
  steps := [moveStep undefined "move_to_pickup" pickupX pickupY, pickStep palletId,
    moveStep undefined "move_to_place" placeX placeY, placeStep]
  timeoutMs := 90000
  maxRetries := 2
  retryDelayMs := 5000
  description := "Transport pallet from pickup to placement location"

structure TransportTask where
  taskId : String
  sequence : TransportDefinition
  description : String

def makeTransportTask (taskId : String) (pickupX pickupY placeX placeY : ℚ) (palletId : String) :
    Except String TransportTask :=
  if palletId = "" then .error "Pallet ID cannot be empty"
  else .ok {
    taskId
    sequence := buildDefinition undefined pickupX pickupY placeX placeY palletId
    description := "Transport pallet " ++ palletId ++ " from (" ++ doubleText pickupX ++ "," ++
      doubleText pickupY ++ ") to (" ++ doubleText placeX ++ "," ++ doubleText placeY ++ ")" }

def TransportStep.Denotes (s : TransportStep) (name : String) (q : ℚ) : Prop :=
  ∃ text, s.parameters.lookup name = some text ∧ Decimal.number? text.toList = some q

structure TransportStep.MovesTo (s : TransportStep) (x y : ℚ) : Prop where
  isMove : s.actionType = "MoveToPosition"
  targetX : s.Denotes "target_x" x
  targetY : s.Denotes "target_y" y

/-- A move to the pickup position, a pick of the pallet, a move to the place position, a place. -/
def Transports (pickupX pickupY placeX placeY : ℚ) (palletId : String)
    (d : TransportDefinition) : Prop :=
  ∃ toPickup pick toPlace place, d.steps = [toPickup, pick, toPlace, place] ∧
    toPickup.MovesTo pickupX pickupY ∧
    pick.actionType = "PickPallet" ∧ pick.parameters.lookup "pallet_id" = some palletId ∧
    toPlace.MovesTo placeX placeY ∧
    place.actionType = "PlacePallet"

def FitsInt (q : ℚ) : Prop := ∃ n : ℤ, -2 ^ 31 ≤ n ∧ n < 2 ^ 31 ∧ q = n

lemma castInt_eq_iff (q : ℚ) : ((castInt undefined q).toInt : ℚ) = q ↔ FitsInt q := by
  constructor
  · intro h
    exact ⟨_, Int32.le_toInt _, Int32.toInt_lt _, h.symm⟩
  · rintro ⟨n, hlow, hhigh, rfl⟩
    have hwhl : (n : ℚ).num.tdiv (n : ℚ).den = n := by simp
    rw [castInt, hwhl, if_pos ⟨hlow, hhigh⟩, Int32.toInt_ofInt_of_le hlow hhigh]

lemma number?_intText (n : Int32) : Decimal.number? (intText n).toList = some (n.toInt : ℚ) := by
  rw [intText, String.toList_ofList, Decimal.number?_ofInt]

lemma lookup_moveStep (actionId : String) (x y : ℚ) :
    (moveStep undefined actionId x y).parameters.lookup "target_x" =
        some (intText (castInt undefined x)) ∧
      (moveStep undefined actionId x y).parameters.lookup "target_y" =
        some (intText (castInt undefined y)) := by
  constructor
  · rw [moveStep, lookup_addParameter_of_ne _ _ (by decide),
      lookup_addParameter_of_ne _ _ (by decide), lookup_addParameter]
  · rw [moveStep, lookup_addParameter_of_ne _ _ (by decide), lookup_addParameter]

lemma denotes_iff {s : TransportStep} {name : String} {n : Int32} {q : ℚ}
    (h : s.parameters.lookup name = some (intText n)) : s.Denotes name q ↔ (n.toInt : ℚ) = q := by
  rw [TransportStep.Denotes, h]
  constructor
  · rintro ⟨_, hsome, hnum⟩
    cases hsome
    rw [number?_intText] at hnum
    exact Option.some.inj hnum
  · intro hq
    exact ⟨_, rfl, by rw [number?_intText, hq]⟩

lemma moveStep_movesTo_iff (actionId : String) (x y : ℚ) :
    (moveStep undefined actionId x y).MovesTo x y ↔ FitsInt x ∧ FitsInt y := by
  obtain ⟨hx, hy⟩ := lookup_moveStep undefined actionId x y
  rw [← castInt_eq_iff undefined x, ← castInt_eq_iff undefined y,
    ← denotes_iff hx, ← denotes_iff hy]
  exact ⟨fun h => ⟨h.targetX, h.targetY⟩, fun h => ⟨rfl, h.1, h.2⟩⟩

lemma transports_buildDefinition_iff (pickupX pickupY placeX placeY : ℚ) (palletId : String) :
    Transports pickupX pickupY placeX placeY palletId
        (buildDefinition undefined pickupX pickupY placeX placeY palletId) ↔
      (FitsInt pickupX ∧ FitsInt pickupY) ∧ FitsInt placeX ∧ FitsInt placeY := by
  rw [← moveStep_movesTo_iff undefined "move_to_pickup",
    ← moveStep_movesTo_iff undefined "move_to_place"]
  constructor
  · rintro ⟨_, _, _, _, hstp, hpic, -, -, hplc, -⟩
    cases hstp
    exact ⟨hpic, hplc⟩
  · rintro ⟨hpic, hplc⟩
    exact ⟨_, _, _, _, rfl, hpic, rfl, lookup_addParameter _ _ _, hplc, rfl⟩

theorem transports_iff (taskId : String) (pickupX pickupY placeX placeY : ℚ) (palletId : String)
    (hpallet : palletId ≠ "") :
    (Transports pickupX pickupY placeX placeY palletId
          (buildDefinition undefined pickupX pickupY placeX placeY palletId) ∧
        ∃ task, makeTransportTask undefined taskId pickupX pickupY placeX placeY palletId =
            .ok task ∧
          Transports pickupX pickupY placeX placeY palletId task.sequence) ↔
      (FitsInt pickupX ∧ FitsInt pickupY) ∧ FitsInt placeX ∧ FitsInt placeY := by
  rw [← transports_buildDefinition_iff undefined pickupX pickupY placeX placeY palletId]
  constructor
  · rintro ⟨h, -⟩
    exact h
  · intro h
    exact ⟨h, _, if_neg hpallet, h⟩

theorem transports_default :
    Transports 100 200 300 400 "PALLET_DEFAULT"
      (buildDefinition (fun _ => 0) 100 200 300 400 "PALLET_DEFAULT") := by
  have hiff := transports_iff (fun _ => 0) "task" 100 200 300 400 "PALLET_DEFAULT" (by decide)
  have hfits : ∀ n : ℤ, -2 ^ 31 ≤ n → n < 2 ^ 31 → FitsInt n := fun n hlow hhigh =>
    ⟨n, hlow, hhigh, rfl⟩
  refine (hiff.mpr ⟨⟨?_, ?_⟩, ?_, ?_⟩).1
  · exact_mod_cast hfits 100 (by norm_num) (by norm_num)
  · exact_mod_cast hfits 200 (by norm_num) (by norm_num)
  · exact_mod_cast hfits 300 (by norm_num) (by norm_num)
  · exact_mod_cast hfits 400 (by norm_num) (by norm_num)

/-- A pickup position at 1.5 is approached at 1. -/
theorem not_transports : ¬ ∀ (undefined : ℚ → Int32) (taskId : String)
    (pickupX pickupY placeX placeY : ℚ) (palletId : String), palletId ≠ "" →
      Transports pickupX pickupY placeX placeY palletId
          (buildDefinition undefined pickupX pickupY placeX placeY palletId) ∧
        ∃ task, makeTransportTask undefined taskId pickupX pickupY placeX placeY palletId =
            .ok task ∧
          Transports pickupX pickupY placeX placeY palletId task.sequence := by
  intro h
  have htold := (h (fun _ => 0) "task" (3 / 2) 0 0 0 "P1" (by decide)).1
  obtain ⟨⟨⟨n, -, -, hn⟩, -⟩, -⟩ := (transports_buildDefinition_iff _ _ _ _ _ _).mp htold
  have hdoub : (3 : ℚ) = ((2 * n : ℤ) : ℚ) := by
    push_cast
    linarith
  have hodd : (3 : ℤ) = 2 * n := by exact_mod_cast hdoub
  omega

end Mxrc.Robot
