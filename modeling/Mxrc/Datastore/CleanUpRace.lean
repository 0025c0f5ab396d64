import Mxrc.Datastore.DataStore
import Mxrc.Lib.Runs

/-!
# Clean-up against concurrent writes

`cleanExpiredData` collects the expired keys, erases each with its policies, and
does the same for the keys over the LRU capacity. A `set` reads the clock,
stores the value and applies the policy; every element of `ι` is one such call.
`fresh` has, for each key, the call that stored its value since the last
collecting step, if it has a TTL. A collected key is not looked at again.
-/

namespace Mxrc.Datastore
open Mxrc.Lib List Function

inductive CleanPhase
  | idle
  | erase (keys : List String)
  | removePolicy (key : String) (keys : List String)
  | removeLRUPolicy (key : String) (keys : List String)
  | eraseEvicted (keys : List String)
  | removeEvictedPolicy (key : String) (keys : List String)
deriving DecidableEq

def CleanPhase.pending : CleanPhase → List String
  | .idle => []
  | .erase keys | .eraseEvicted keys => keys
  | .removePolicy key keys | .removeLRUPolicy key keys | .removeEvictedPolicy key keys =>
    key :: keys

structure SetArgs where
  id : String
  data : AnyValue
  type : DataType
  policy : DataExpirationPolicy

inductive SetPhase
  | uncalled
  | stamped (now : ℤ)
  | stored (now : ℤ)
  | finished (threw : Bool)
deriving DecidableEq

structure Fresh (ι : Type) where
  caller : ι
  data : SharedData
  expiry : ℤ

structure CleanUpRace (ι : Type) where
  store : DataStore := {}
  clock : ℤ := 0
  cleaner : CleanPhase := .idle
  calls : ι → SetPhase := fun _ => .uncalled
  fresh : String → Option (Fresh ι) := fun _ => none

namespace CleanUpRace
variable {ι : Type}

inductive Op (ι : Type)
  | clean
  | set (c : ι)
  | tick (now : ℤ)

def cleanStep (s : CleanUpRace ι) : CleanUpRace ι :=
  match s.cleaner with
  | .idle => { s with
      cleaner := .erase (s.store.expirationManager.getExpiredKeys s.clock), fresh := fun _ => none }
  | .erase (key :: keys) => { s with
      store := { s.store with dataMap := s.store.dataMap.erase key }
      cleaner := .removePolicy key keys }
  | .removePolicy key keys => { s with
      store := { s.store with expirationManager := s.store.expirationManager.removePolicy key }
      cleaner := .removeLRUPolicy key keys }
  | .removeLRUPolicy key keys => { s with
      store := { s.store with expirationManager := s.store.expirationManager.removeLRUPolicy key }
      cleaner := .erase keys }
  | .erase [] => { s with
      store := { s.store with expirationManager := s.store.expirationManager.getExpiredKeysLRU.2 }
      cleaner := .eraseEvicted s.store.expirationManager.getExpiredKeysLRU.1 }
  | .eraseEvicted (key :: keys) => { s with
      store := { s.store with dataMap := s.store.dataMap.erase key }
      cleaner := .removeEvictedPolicy key keys }
  | .removeEvictedPolicy key keys => { s with
      store := { s.store with expirationManager := s.store.expirationManager.removePolicy key }
      cleaner := .eraseEvicted keys }
  | .eraseEvicted [] => { s with cleaner := .idle }

section
variable [DecidableEq ι] (args : ι → SetArgs) (s : CleanUpRace ι)

def newData (c : ι) (now : ℤ) : SharedData :=
  DataStore.newData (args c).id (args c).data (args c).type (args c).policy now

def hasTtl (c : ι) : Prop := (args c).policy.policyType = .ttl

instance (c : ι) : Decidable (hasTtl args c) := inferInstanceAs (Decidable (_ = _))

def freshAfter (c : ι) (now : ℤ) : String → Option (Fresh ι) :=
  Function.update s.fresh (args c).id
    (if hasTtl args c then
      some ⟨c, newData args c now, (args c).policy.expiresAt now⟩
    else none)

def setStep (c : ι) : Option (CleanUpRace ι) :=
  match s.calls c with
  | .uncalled => some { s with calls := Function.update s.calls c (.stamped s.clock) }
  | .stamped now =>
    match s.store.store (newData args c now) with
    | .error _ => some { s with calls := Function.update s.calls c (.finished true) }
    | .ok store => some { s with
        store
        calls := Function.update s.calls c (.stored now)
        fresh := s.freshAfter args c now }
  | .stored now => some { s with
      store := s.store.applyPolicy (args c).id (args c).policy now
      calls := Function.update s.calls c (.finished false) }
  | .finished _ => none

def next : Op ι → Option (CleanUpRace ι)
  | .clean => some s.cleanStep
  | .set c => s.setStep args c
  | .tick now => some { s with clock := now }

/-- Between clean-ups, an unexpired value stored by a finished `set` after the last collecting step
is there with its policy. -/
def FreshKept : Prop :=
  s.cleaner = .idle → ∀ id f, s.fresh id = some f → s.calls f.caller = .finished false →
    s.clock < f.expiry →
      s.store.dataMap.lookup id = some f.data ∧
        s.store.expirationManager.keyToExpiration.lookup id = some f.expiry

/-- A value with a TTL is stored only for a key that the clean-up does not have to treat and that
has no other policy on its way, and is not evicted. -/
def Undisturbed : Op ι → Prop
  | .clean => s.cleaner = .erase [] →
      ∀ id ∈ s.store.expirationManager.getExpiredKeysLRU.1, s.fresh id = none
  | .set c => ∀ now, s.calls c = .stamped now → hasTtl args c →
      (args c).id ∉ s.cleaner.pending ∧
        ∀ c' now', s.calls c' = .stored now' → hasTtl args c' → (args c').id ≠ (args c).id
  | .tick _ => True

end

def LeavesFresh [DecidableEq ι] (args : ι → SetArgs)
    (G : CleanUpRace ι → Op ι → Prop) (ops : List (Op ι)) : Prop :=
  ∀ s, Run (next args) G {} ops s → s.FreshKept

section
variable [DecidableEq ι] (args : ι → SetArgs)

section
variable (keys : List String) (store : DataStore) (clock : ℤ) (calls : ι → SetPhase)
  (fresh : String → Option (Fresh ι))
include keys store clock calls fresh

lemma run_erase :
    Run (next args) (fun _ _ => True) ⟨store, clock, .erase keys, calls, fresh⟩
      (List.replicate (3 * keys.length) .clean)
      ⟨keys.foldl DataStore.eraseExpired store, clock, .erase [], calls, fresh⟩ := by
  induction keys generalizing store with
  | nil => exact .nil
  | cons key keys ih =>
    exact .cons trivial rfl (.cons trivial rfl (.cons trivial rfl (ih (store.eraseExpired key))))

lemma run_eraseEvicted :
    Run (next args) (fun _ _ => True) ⟨store, clock, .eraseEvicted keys, calls, fresh⟩
      (List.replicate (2 * keys.length) .clean)
      ⟨keys.foldl DataStore.eraseEvicted store, clock, .eraseEvicted [], calls, fresh⟩ := by
  induction keys generalizing store with
  | nil => exact .nil
  | cons key keys ih =>
    exact .cons trivial rfl (.cons trivial rfl (ih (store.eraseEvicted key)))

end

end

structure Kept (args : ι → SetArgs) (s : CleanUpRace ι) (id : String) (f : Fresh ι) : Prop where
  untreated : id ∉ s.cleaner.pending
  data : s.store.dataMap.lookup id = some f.data
  own : (args f.caller).id = id
  ttl : hasTtl args f.caller
  policy : (∃ now, s.calls f.caller = .stored now ∧
      f.expiry = (args f.caller).policy.expiresAt now) ∨
    s.calls f.caller = .finished false ∧
      s.store.expirationManager.keyToExpiration.lookup id = some f.expiry
  sole : ∀ c now, s.calls c = .stored now → hasTtl args c → (args c).id = id → c = f.caller

def Safe (args : ι → SetArgs) (s : CleanUpRace ι) : Prop :=
  ∀ id f, s.fresh id = some f → Kept args s id f

section
variable {args : ι → SetArgs} {s s' : CleanUpRace ι} {id : String} {f : Fresh ι} {store : DataStore}
  {c : ι} {fresh : String → Option (Fresh ι)} {now : ℤ}

lemma Kept.clean (h : Kept args s id f) {cleaner : CleanPhase} (hpend : id ∉ cleaner.pending)
    (hdata : store.dataMap.lookup id = s.store.dataMap.lookup id)
    (hpol : store.expirationManager.keyToExpiration.lookup id =
      s.store.expirationManager.keyToExpiration.lookup id) :
    Kept args { s with store, cleaner } id f :=
  ⟨hpend, hdata.trans h.data, h.own, h.ttl,
    h.policy.imp_right fun hdone => ⟨hdone.1, hpol.trans hdone.2⟩, h.sole⟩

lemma Safe.cleanStep [DecidableEq ι] (h : Safe args s) (hop : Undisturbed args s .clean) :
    Safe args s.cleanStep := by
  unfold CleanUpRace.cleanStep
  split
  · intro id f hf
    cases hf
  all_goals
    rename_i hph
    intro id f hf
    have hkept := h id f hf
    have hunt := hkept.untreated
    simp only [hph, CleanPhase.pending, mem_cons, not_or] at hunt
  · exact hkept.clean (by simpa [CleanPhase.pending] using hunt) (AList.lookup_erase_ne hunt.1) rfl
  · refine hkept.clean (by simpa [CleanPhase.pending] using hunt) rfl ?_
    rw [ExpirationManager.lookup_removePolicy, if_neg hunt.1]
  · refine hkept.clean hunt.2 rfl ?_
    rw [(ExpirationManager.sameTtl_removeLRUPolicy _ _).keyToExpiration]
  · refine hkept.clean (fun hin => ?_) rfl ?_
    · rw [hop hph id hin] at hf
      cases hf
    · rw [(ExpirationManager.sameTtl_getExpiredKeysLRU _).keyToExpiration]
  · exact hkept.clean (by simpa [CleanPhase.pending] using hunt) (AList.lookup_erase_ne hunt.1) rfl
  · refine hkept.clean hunt.2 rfl ?_
    rw [ExpirationManager.lookup_removePolicy, if_neg hunt.1]
  · exact hkept.clean (by simp [CleanPhase.pending]) rfl rfl

lemma Kept.caller_ne (h : Kept args s id f)
    (hc : ∀ now, s.calls c ≠ .stored now ∧ s.calls c ≠ .finished false) : f.caller ≠ c := by
  rintro rfl
  rcases h.policy with ⟨now, hsto, -⟩ | ⟨hdone, -⟩
  · exact (hc now).1 hsto
  · exact (hc 0).2 hdone

lemma Kept.call [DecidableEq ι] (h : Kept args s id f) {phase : SetPhase} (hne : f.caller ≠ c)
    (hdata : store.dataMap.lookup id = s.store.dataMap.lookup id)
    (hpol : store.expirationManager.keyToExpiration.lookup id =
      s.store.expirationManager.keyToExpiration.lookup id)
    (haft : ∀ now, phase = .stored now → hasTtl args c → (args c).id ≠ id) :
    Kept args { s with store, calls := Function.update s.calls c phase, fresh } id f := by
  refine ⟨h.untreated, hdata.trans h.data, h.own, h.ttl, ?_, fun c' now hc' httl hid => ?_⟩
  · simp only [update_of_ne hne]
    exact h.policy.imp_right fun hdone => ⟨hdone.1, hpol.trans hdone.2⟩
  · replace hc' : Function.update s.calls c phase c' = .stored now := hc'
    by_cases hcc : c' = c
    · subst hcc
      rw [update_self] at hc'
      exact absurd hid (haft now hc' httl)
    · rw [update_of_ne hcc] at hc'
      exact h.sole c' now hc' httl hid

lemma kept_store [DecidableEq ι] (httl : hasTtl args c)
    (hpend : (args c).id ∉ s.cleaner.pending)
    (hsole : ∀ c' now', s.calls c' = .stored now' → hasTtl args c' → (args c').id ≠ (args c).id)
    (hstr : s.store.store (newData args c now) = .ok store) :
    Kept args { s with store, calls := Function.update s.calls c (.stored now), fresh }
      (args c).id ⟨c, newData args c now, (args c).policy.expiresAt now⟩ := by
  refine ⟨hpend, ?_, rfl, httl, .inl ⟨now, update_self .., rfl⟩, ?_⟩
  · rw [DataStore.store_eq_ok hstr]
    exact AList.lookup_insert _
  · intro c' now' hc' httl' hid
    by_contra hcc
    replace hc' : Function.update s.calls c (.stored now) c' = .stored now' := hc'
    rw [update_of_ne hcc] at hc'
    exact hsole c' now' hc' httl' hid

lemma lookup_applyPolicy_of_ne {id' : String} {policy : DataExpirationPolicy}
    (h : policy.policyType = .ttl → id' ≠ id) :
    (store.applyPolicy id' policy now).expirationManager.keyToExpiration.lookup id =
      store.expirationManager.keyToExpiration.lookup id := by
  rw [DataStore.applyPolicy]
  cases htype : policy.policyType with
  | ttl => exact ExpirationManager.lookup_applyPolicy.trans (if_neg (h htype).symm)
  | lru => exact congrArg _ (ExpirationManager.sameTtl_applyLRUPolicy _ _ _).keyToExpiration
  | none => rfl

lemma Safe.stored [DecidableEq ι] (h : Safe args s) (hc : s.calls c = .stored now) :
    Safe args { s with
      store := s.store.applyPolicy (args c).id (args c).policy now
      calls := Function.update s.calls c (.finished false) } := by
  intro id f hf
  have hkept := h id f hf
  by_cases hclr : f.caller = c
  · subst hclr
    refine ⟨hkept.untreated, ?_, hkept.own, hkept.ttl, .inr ⟨update_self .., ?_⟩, ?_⟩
    · exact (congrArg _ (DataStore.dataMap_applyPolicy ..)).trans hkept.data
    · rcases hkept.policy with ⟨now', hsto, hexp⟩ | ⟨hdone, -⟩
      · rw [hc] at hsto
        cases hsto
        have httl : (args f.caller).policy.policyType = .ttl := hkept.ttl
        rw [hexp, hkept.own, DataStore.applyPolicy, httl]
        exact ExpirationManager.lookup_applyPolicy.trans (if_pos rfl)
      · rw [hc] at hdone
        cases hdone
    · intro c' now' hc' httl hid
      by_contra hcc
      replace hc' : Function.update s.calls f.caller (.finished false) c' = .stored now' := hc'
      rw [update_of_ne hcc] at hc'
      exact hcc (hkept.sole c' now' hc' httl hid)
  · refine hkept.call hclr (congrArg _ (DataStore.dataMap_applyPolicy ..)) ?_ (by simp)
    exact lookup_applyPolicy_of_ne fun httl hid => hclr (hkept.sole c now hc httl hid).symm

lemma Safe.setStep [DecidableEq ι] (h : Safe args s) (hop : Undisturbed args s (.set c))
    (hn : s.setStep args c = some s') : Safe args s' := by
  unfold CleanUpRace.setStep at hn
  split at hn
  · rename_i hc
    cases hn
    intro id f hf
    have hkept := h id f hf
    exact hkept.call (hkept.caller_ne (by simp [hc])) rfl rfl (by simp)
  · rename_i now hc
    split at hn
    · cases hn
      intro id f hf
      have hkept := h id f hf
      exact hkept.call (hkept.caller_ne (by simp [hc])) rfl rfl (by simp)
    · rename_i store hstr
      cases hn
      intro id f hf
      replace hf : s.freshAfter args c now id = some f := hf
      rw [freshAfter] at hf
      by_cases hid : id = (args c).id
      · subst hid
        rw [update_self] at hf
        split_ifs at hf with httl
        cases hf
        obtain ⟨hpend, hsole⟩ := hop now hc httl
        exact kept_store httl hpend hsole hstr
      · rw [update_of_ne hid] at hf
        have hkept := h id f hf
        rw [DataStore.store_eq_ok hstr]
        exact hkept.call (hkept.caller_ne (by simp [hc])) (AList.lookup_insert_ne hid) rfl
          fun _ _ _ => Ne.symm hid
  · rename_i now hc
    cases hn
    exact h.stored hc
  · cases hn

lemma Safe.next [DecidableEq ι] (h : Safe args s) {op : Op ι} (hop : Undisturbed args s op)
    (hn : s.next args op = some s') : Safe args s' := by
  cases op with
  | clean =>
    cases hn
    exact h.cleanStep hop
  | set c => exact h.setStep hop hn
  | tick now =>
    cases hn
    intro id f hf
    have hkept := h id f hf
    exact ⟨hkept.untreated, hkept.data, hkept.own, hkept.ttl, hkept.policy, hkept.sole⟩

lemma Safe.freshKept (h : Safe args s) : s.FreshKept := by
  intro _ id f hf hdone _
  have hkept := h id f hf
  refine ⟨hkept.data, ?_⟩
  rcases hkept.policy with ⟨now, hsto, -⟩ | ⟨-, hpol⟩
  · rw [hdone] at hsto
    cases hsto
  · exact hpol

end

theorem leavesFresh_of_undisturbed [DecidableEq ι] (args : ι → SetArgs) (ops : List (Op ι)) :
    LeavesFresh args (Undisturbed args) ops := by
  intro s hrun
  have hsafe : Safe args s := hrun.invariant (Safe args) (fun id f hf => by cases hf)
    fun _ _ _ hs hop hn => hs.next hop hn
  exact hsafe.freshKept

/-- The value of `k` has expired when the clean-up collects, and a new one is stored before `k` is
erased. -/
def renewal : Bool → SetArgs
  | false => ⟨"k", .int 1, .event, ⟨.ttl, 1⟩⟩
  | true => ⟨"k", .int 2, .event, ⟨.ttl, 10⟩⟩

def renewalRun : List (Op Bool) :=
  [.set false, .set false, .set false, .tick 2000000, .clean, .set true, .set true, .set true,
    .clean, .clean, .clean, .clean, .clean]

lemma renewalRun_erases :
    (exec (next renewal) (fun _ _ => true) {} renewalRun).map (fun s =>
      (s.cleaner, s.clock, (s.fresh "k").map (fun f => (f.caller, f.expiry)), s.calls true,
        (s.store.dataMap.lookup "k").isSome)) =
      some (.idle, 2000000, some (true, 12000000), .finished false, false) := by
  decide +kernel

theorem not_leavesFresh : ¬∀ (ι : Type) (_ : DecidableEq ι) (args : ι → SetArgs)
    (ops : List (Op ι)), LeavesFresh args (fun _ _ => True) ops := by
  intro h
  obtain ⟨s, hrun, hend⟩ := exists_run_of_exec (fun _ _ _ => trivial) renewalRun_erases
  simp only [Prod.mk.injEq] at hend
  obtain ⟨hidle, hclc, hfr, hdone, hgone⟩ := hend
  obtain ⟨f, hf, hclr⟩ := Option.map_eq_some_iff.mp hfr
  obtain ⟨hclr, hexp⟩ := Prod.mk.inj hclr
  have hkept := h Bool inferInstance renewal renewalRun s hrun
    hidle "k" f hf (hclr ▸ hdone) (by rw [hclc, hexp]; decide)
  rw [hkept.1] at hgone
  cases hgone

end CleanUpRace
end Mxrc.Datastore
