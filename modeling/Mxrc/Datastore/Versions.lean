import Mxrc.Datastore.DataStore
import Mxrc.Lib.Runs

/-!
# Versions of stored values

Any number of clients; each access to a map is one step, and `getVersioned`
holds its accessor on `data_map_` until it returns. `set` leaves the version
alone and `setVersioned` advances it after the value is visible. In the use that
`Versioned` describes, the value of a key is a function `valueAt` of the number
of `setVersioned` calls.
-/

namespace Mxrc.Datastore
open Mxrc.Lib Function AList

structure VersionedData where
  value : AnyValue
  version : UInt64
  timestampNs : UInt64
deriving DecidableEq

def VersionedData.isConsistentWith (d other : VersionedData) : Bool := d.version = other.version

inductive ClientPhase
  | idle
  | applying (id : String) (policy : DataExpirationPolicy) (now : ℤ)
  | advancing (id : String)
  | accessing (id : String)
  | reading (id : String) (stored : SharedData)
deriving DecidableEq

def ClientPhase.Quiet (id : String) (phase : ClientPhase) : Prop :=
  phase ≠ .advancing id ∧ ∀ d, phase ≠ .reading id d

/-- `readers` has the clients that hold an accessor on an entry, and `results` what `getVersioned`
has returned. -/
structure SharedStore (ι : Type) where
  store : DataStore
  clients : ι → ClientPhase
  readers : String → Finset ι
  results : List (String × VersionedData)

namespace SharedStore
variable {ι : Type}

def make (ι : Type) : SharedStore ι := ⟨{}, fun _ => .idle, fun _ => ∅, []⟩

section
variable [DecidableEq ι] (s : SharedStore ι) (c : ι)

def setClient (phase : ClientPhase) : SharedStore ι :=
  { s with clients := Function.update s.clients c phase }

def set (id : String) (data : AnyValue) (type : DataType) (policy : DataExpirationPolicy)
    (now : ℤ) : Option (SharedStore ι) :=
  if s.clients c = .idle ∧ s.readers id = ∅ then
    match s.store.store (DataStore.newData id data type policy now) with
    | .ok store => some { s.setClient c (.applying id policy now) with store }
    | .error _ => some s
  else none

def setVersioned (id : String) (value : AnyValue) (type : DataType) (now : ℤ) :
    Option (SharedStore ι) :=
  if s.clients c = .idle ∧ s.readers id = ∅ then
    some { s.setClient c (.advancing id) with store := s.store.storeVersioned id value type now }
  else none

def get (id : String) (type : TypeId) : Option (SharedStore ι) :=
  if s.clients c = .idle then
    match s.store.get id type with
    | .ok _ => some (s.setClient c (.accessing id))
    | .error _ => some s
  else none

def getVersioned (id : String) (type : TypeId) : Option (SharedStore ι) :=
  if s.clients c = .idle then
    match s.store.readValue id type with
    | .ok stored => some { s.setClient c (.reading id stored) with
        readers := Function.update s.readers id (insert c (s.readers id)) }
    | .error _ => some s
  else none

def proceed : Option (SharedStore ι) :=
  match s.clients c with
  | .idle => none
  | .applying id policy now =>
    some { s.setClient c .idle with store := s.store.applyPolicy id policy now }
  | .advancing id => some { s.setClient c .idle with store := s.store.advanceVersion id }
  | .accessing id => some { s.setClient c .idle with store :=
      { s.store with expirationManager := s.store.expirationManager.recordAccess id } }
  | .reading id stored => some { s.setClient c .idle with
      readers := Function.update s.readers id ((s.readers id).erase c)
      results := s.results ++
        [(id, ⟨stored.value, s.store.version id, UInt64.ofInt stored.timestamp⟩)] }

end

inductive Op (ι : Type)
  | set (c : ι) (id : String) (data : AnyValue) (type : DataType) (policy : DataExpirationPolicy)
      (now : ℤ)
  | setVersioned (c : ι) (id : String) (value : AnyValue) (type : DataType) (now : ℤ)
  | get (c : ι) (id : String) (type : TypeId)
  | getVersioned (c : ι) (id : String) (type : TypeId)
  | proceed (c : ι)

def next [DecidableEq ι] (s : SharedStore ι) : Op ι → Option (SharedStore ι)
  | .set c id data type policy now => s.set c id data type policy now
  | .setVersioned c id value type now => s.setVersioned c id value type now
  | .get c id type => s.get c id type
  | .getVersioned c id type => s.getVersioned c id type
  | .proceed c => s.proceed c

/-- `set` does not replace another value, `getVersioned` does not start while the version is about
to be advanced, and no version wraps. -/
def Versioned (s : SharedStore ι) : Op ι → Prop
  | .set _ id data _ _ _ => ∀ d, s.store.dataMap.lookup id = some d → d.value = data
  | .getVersioned _ id _ => ∀ c, s.clients c ≠ .advancing id
  | .proceed c => ∀ id, s.clients c = .advancing id → (s.store.version id).toNat + 1 < 2 ^ 64
  | _ => True

/-- Two results of `getVersioned<T>(id)` with the same version have the same value. -/
def VersionsIdentify (ι : Type) [DecidableEq ι] (G : SharedStore ι → Op ι → Prop) : Prop :=
  ∀ ops s, Run next G (make ι) ops s →
    ∀ id r r', (id, r) ∈ s.results → (id, r') ∈ s.results → r.value.type = r'.value.type →
      r.isConsistentWith r' = true → r.value = r'.value

/-- `n` calls of `setVersioned` have stored a value under `id`; those in `pending` have not advanced
the version yet. -/
structure Tracks (s : SharedStore ι) (id : String) (n : ℕ) (valueAt : ℕ → Option AnyValue)
    (pending : Finset ι) : Prop where
  mem_pending : ∀ c, c ∈ pending ↔ s.clients c = .advancing id
  count : (s.store.version id).toNat + pending.card = n
  stored : ∀ d, s.store.dataMap.lookup id = some d → valueAt n = some d.value
  absent : s.store.dataMap.lookup id = none → n = 0 ∧ ∀ k, valueAt k = none
  reading : ∀ c d, s.clients c = .reading id d →
    c ∈ s.readers id ∧ s.store.dataMap.lookup id = some d ∧ pending = ∅
  results : ∀ r, (id, r) ∈ s.results →
    r.version.toNat ≤ n ∧ valueAt r.version.toNat = some r.value

def Tracked (s : SharedStore ι) (id : String) : Prop :=
  ∃ n valueAt pending, Tracks s id n valueAt pending

section
variable {s s' : SharedStore ι} {id : String} {n : ℕ} {valueAt : ℕ → Option AnyValue}
  {pending : Finset ι}

lemma Tracks.not_reading (h : Tracks s id n valueAt pending) (hread : s.readers id = ∅)
    (c : ι) (d : SharedData) : s.clients c ≠ .reading id d := by
  intro hc
  have := (h.reading c d hc).1
  simp [hread] at this

lemma tracks_make : Tracks (make ι) id 0 (fun _ => none) ∅ where
  mem_pending c := by simp [make]
  count := by simp [make, DataStore.version]
  stored d hd := by simp [make] at hd
  absent _ := ⟨rfl, fun _ => rfl⟩
  reading c d hc := by simp [make] at hc
  results r hr := by simp [make] at hr

variable [DecidableEq ι] {c : ι} {phase : ClientPhase} {d : SharedData} {id₀ : String}
  {type : DataType}

lemma Tracks.quiet (h : Tracks s id n valueAt pending)
    (hcli : s'.clients = Function.update s.clients c phase) (hbef : (s.clients c).Quiet id)
    (haft : phase.Quiet id) (hread : ∀ c', c' ≠ c → c' ∈ s.readers id → c' ∈ s'.readers id)
    (hdata : s'.store.dataMap.lookup id = s.store.dataMap.lookup id)
    (hver : s'.store.version id = s.store.version id)
    (hres : ∀ r, (id, r) ∈ s'.results → (id, r) ∈ s.results) :
    Tracks s' id n valueAt pending where
  mem_pending c' := by
    rw [hcli, h.mem_pending]
    exact (update_eq_iff hbef.1 haft.1 c').symm
  count := hver ▸ h.count
  stored := hdata ▸ h.stored
  absent := hdata ▸ h.absent
  reading c' d hc' := by
    rw [hcli, update_eq_iff (hbef.2 d) (haft.2 d)] at hc'
    obtain ⟨hrdr, hlk, hpend⟩ := h.reading c' d hc'
    refine ⟨hread c' ?_ hrdr, hdata.trans hlk, hpend⟩
    rintro rfl
    exact hbef.2 d hc'
  results r hr := h.results r (hres r hr)

lemma Tracks.move (h : Tracks s id n valueAt pending) {store : DataStore}
    (hbef : (s.clients c).Quiet id) (haft : phase.Quiet id)
    (hdata : store.dataMap.lookup id = s.store.dataMap.lookup id)
    (hver : store.version id = s.store.version id) :
    Tracked { s.setClient c phase with store } id :=
  ⟨n, valueAt, pending,
    h.quiet rfl hbef haft (fun _ _ hc => hc) hdata hver fun _ hr => hr⟩

lemma quiet_idle : ClientPhase.idle.Quiet id := ⟨by simp, by simp⟩

section
variable (h : Tracks s id n valueAt pending)
include h

lemma Tracks.write (hread : s.readers id = ∅) {n' : ℕ} {valueAt' : ℕ → Option AnyValue}
    {pending' : Finset ι} (hcli : s'.clients = Function.update s.clients c phase)
    (hph : ∀ d, phase ≠ .reading id d) (hdata : s'.store.dataMap.lookup id = some d)
    (hpend : ∀ c, c ∈ pending' ↔ s'.clients c = .advancing id)
    (hcnt : (s'.store.version id).toNat + pending'.card = n')
    (hvl : valueAt' n' = some d.value)
    (hres : ∀ r, (id, r) ∈ s'.results →
      r.version.toNat ≤ n' ∧ valueAt' r.version.toNat = some r.value) :
    Tracks s' id n' valueAt' pending' where
  mem_pending := hpend
  count := hcnt
  stored d' hd' := by
    rw [hdata] at hd'
    cases hd'
    exact hvl
  absent hnone := by
    rw [hdata] at hnone
    cases hnone
  reading c' d' hc' := by
    rw [hcli, update_apply] at hc'
    split_ifs at hc' with hc
    · exact absurd hc' (hph d')
    · exact absurd hc' (h.not_reading hread c' d')
  results := hres

lemma Tracks.set {data : AnyValue} {policy : DataExpirationPolicy} {now : ℤ}
    (hop : Versioned s (.set c id₀ data type policy now))
    (hn : s.set c id₀ data type policy now = some s') : Tracked s' id := by
  unfold SharedStore.set at hn
  split_ifs at hn with hfree
  split at hn
  · rename_i store hstr
    cases DataStore.store_eq_ok hstr
    cases hn
    have hbef : (s.clients c).Quiet id := hfree.1 ▸ quiet_idle
    have haft : (ClientPhase.applying id₀ policy now).Quiet id := ⟨by simp, by simp⟩
    by_cases hid : id = id₀
    · subst hid
      have hpend : ∀ c', c' ∈ pending ↔
          Function.update s.clients c (.applying id policy now) c' = .advancing id :=
        fun c' => (h.mem_pending c').trans (update_eq_iff hbef.1 haft.1 c').symm
      cases hlk : s.store.dataMap.lookup id with
      | some d =>
        have hvl : valueAt n = some data := by rw [h.stored d hlk, hop d hlk]
        exact ⟨n, valueAt, pending, h.write hfree.2 rfl haft.2 (lookup_insert _) hpend
          h.count hvl h.results⟩
      | none =>
        -- nothing has been stored yet, so nothing has been read either
        obtain ⟨rfl, hemp⟩ := h.absent hlk
        refine ⟨0, Function.update valueAt 0 (some data), pending, h.write hfree.2 rfl haft.2
          (lookup_insert _) hpend h.count (update_self ..) fun r hr => ?_⟩
        have hvl := (h.results r hr).2
        rw [hemp] at hvl
        cases hvl
    · exact h.move hbef haft (lookup_insert_ne hid) rfl
  · cases hn
    exact ⟨n, valueAt, pending, h⟩

lemma Tracks.setVersioned {value : AnyValue} {now : ℤ}
    (hn : s.setVersioned c id₀ value type now = some s') : Tracked s' id := by
  unfold SharedStore.setVersioned at hn
  split_ifs at hn with hfree
  cases hn
  by_cases hid : id = id₀
  · subst hid
    have hc : c ∉ pending := by simp [h.mem_pending, hfree.1]
    refine ⟨n + 1, Function.update valueAt (n + 1) (some value), insert c pending,
      h.write hfree.2 rfl (by simp) (lookup_insert _) (fun c' => ?_) ?_
        (update_self ..) fun r hr => ?_⟩
    · by_cases hc' : c' = c
      · simp [SharedStore.setClient, hc']
      · simp [SharedStore.setClient, hc', h.mem_pending]
    · rw [Finset.card_insert_of_notMem hc, ← h.count]
      exact (Nat.add_assoc ..).symm
    · obtain ⟨hle, hvl⟩ := h.results r hr
      refine ⟨by omega, ?_⟩
      rw [update_of_ne (by omega), hvl]
  · have haft : (ClientPhase.advancing id₀).Quiet id := ⟨by simp [Ne.symm hid], by simp⟩
    exact h.move (hfree.1 ▸ quiet_idle) haft (lookup_insert_ne hid) rfl

lemma Tracks.get {type : TypeId} (hn : s.get c id₀ type = some s') : Tracked s' id := by
  unfold SharedStore.get at hn
  split_ifs at hn with hidle
  split at hn
  · cases hn
    exact h.move (hidle ▸ quiet_idle) ⟨by simp, by simp⟩ rfl rfl
  · cases hn
    exact ⟨n, valueAt, pending, h⟩

lemma Tracks.getVersioned {type : TypeId} (hop : Versioned s (.getVersioned c id₀ type))
    (hn : s.getVersioned c id₀ type = some s') : Tracked s' id := by
  unfold SharedStore.getVersioned at hn
  split_ifs at hn with hidle
  split at hn
  · rename_i stored hsto
    cases hn
    refine ⟨n, valueAt, pending, ?_⟩
    have hlk := (DataStore.readValue_eq_ok hsto).1
    by_cases hid : id = id₀
    · subst hid
      have hpend : pending = ∅ := by
        refine Finset.eq_empty_of_forall_notMem fun c' hc' => ?_
        exact hop c' ((h.mem_pending c').mp hc')
      refine { h with mem_pending := fun c' => ?_, reading := fun c' d hc' => ?_ }
      · exact (h.mem_pending c').trans (update_eq_iff (by simp [hidle]) (by simp) c').symm
      · replace hc' : Function.update s.clients c (.reading id stored) c' = .reading id d := hc'
        by_cases hc : c' = c
        · rw [hc, update_self] at hc'
          cases hc'
          exact ⟨by simp [hc], hlk, hpend⟩
        · rw [update_of_ne hc] at hc'
          exact ⟨by simp [(h.reading c' d hc').1], (h.reading c' d hc').2⟩
    · refine h.quiet rfl (hidle ▸ quiet_idle) ⟨by simp, by simp [Ne.symm hid]⟩ ?_ rfl rfl
        (fun _ hr => hr)
      intro c' _ hc'
      simpa [update_of_ne hid] using hc'
  · cases hn
    exact ⟨n, valueAt, pending, h⟩

end

lemma reading_of_idle {c' : ι} (hc' : (s.setClient c .idle).clients c' = .reading id d) :
    c' ≠ c ∧ s.clients c' = .reading id d := by
  replace hc' : Function.update s.clients c .idle c' = .reading id d := hc'
  rw [update_apply] at hc'
  split_ifs at hc' with hc
  exact ⟨hc, hc'⟩

section
variable (h : Tracks s id n valueAt pending)
include h

lemma Tracks.advanceVersion (hph : s.clients c = .advancing id)
    (hroom : (s.store.version id).toNat + 1 < 2 ^ 64) :
    Tracks { s.setClient c .idle with store := s.store.advanceVersion id } id n valueAt
      (pending.erase c) where
  mem_pending c' := by
    by_cases hc : c' = c
    · simp [SharedStore.setClient, hc]
    · simp [SharedStore.setClient, h.mem_pending, hc]
  count := by
    have hc : c ∈ pending := (h.mem_pending c).mpr hph
    have hpos : 0 < pending.card := Finset.card_pos.mpr ⟨c, hc⟩
    have hcnt := h.count
    rw [DataStore.version_advanceVersion, if_pos rfl, Finset.card_erase_of_mem hc, UInt64.toNat_add]
    simp only [UInt64.toNat_one]
    omega
  stored := h.stored
  absent := h.absent
  reading c' d hc' := by
    obtain ⟨hc, hc'⟩ := reading_of_idle hc'
    obtain ⟨-, -, hpend⟩ := h.reading c' d hc'
    have hc := (h.mem_pending c).mpr hph
    simp [hpend] at hc
  results := h.results

lemma Tracks.returns (hph : s.clients c = .reading id d) :
    Tracks { s.setClient c .idle with
      readers := Function.update s.readers id ((s.readers id).erase c)
      results := s.results ++ [(id, ⟨d.value, s.store.version id, UInt64.ofInt d.timestamp⟩)] }
      id n valueAt pending where
  mem_pending c' := by
    by_cases hc : c' = c
    · simp [SharedStore.setClient, h.mem_pending, hc, hph]
    · simp [SharedStore.setClient, h.mem_pending, hc]
  count := h.count
  stored := h.stored
  absent := h.absent
  reading c' d' hc' := by
    obtain ⟨hc, hc'⟩ := reading_of_idle hc'
    exact ⟨by simp [hc, (h.reading c' d' hc').1], (h.reading c' d' hc').2⟩
  results r hr := by
    rcases List.mem_append.mp hr with hold | hnew
    · exact h.results r hold
    · obtain ⟨-, hlk, hpend⟩ := h.reading c d hph
      have hver : (s.store.version id).toNat = n := by simpa [hpend] using h.count
      cases List.mem_singleton.mp hnew
      exact ⟨hver.le, by rw [hver, h.stored d hlk]⟩

lemma Tracks.proceed (hop : Versioned s (.proceed c)) (hn : s.proceed c = some s') :
    Tracked s' id := by
  unfold SharedStore.proceed at hn
  split at hn
  · cases hn
  · rename_i hph
    cases hn
    refine h.move (hph ▸ ⟨by simp, by simp⟩) quiet_idle ?_ (DataStore.version_applyPolicy ..)
    exact congrArg (AList.lookup id) (DataStore.dataMap_applyPolicy ..)
  · rename_i id₀ hph
    cases hn
    by_cases hid : id = id₀
    · subst hid
      exact ⟨n, valueAt, pending.erase c, h.advanceVersion hph (hop id hph)⟩
    · refine h.move (hph ▸ ⟨by simp [Ne.symm hid], by simp⟩) quiet_idle rfl ?_
      rw [DataStore.version_advanceVersion, if_neg hid]
  · rename_i hph
    cases hn
    exact h.move (hph ▸ ⟨by simp, by simp⟩) quiet_idle rfl rfl
  · rename_i id₀ d hph
    cases hn
    by_cases hid : id = id₀
    · subst hid
      exact ⟨n, valueAt, pending, h.returns hph⟩
    · refine ⟨n, valueAt, pending, h.quiet rfl (hph ▸ ⟨by simp, by simp [Ne.symm hid]⟩)
        quiet_idle (fun c' _ hc => ?_) rfl rfl (fun r hr => ?_)⟩
      · simpa [update_of_ne hid] using hc
      · simpa [hid] using hr

lemma Tracks.next {op : Op ι} (hop : Versioned s op) (hn : s.next op = some s') :
    Tracked s' id := by
  cases op with
  | set => exact h.set hop hn
  | setVersioned => exact h.setVersioned hn
  | get => exact h.get hn
  | getVersioned => exact h.getVersioned hop hn
  | proceed => exact h.proceed hop hn

end
end

theorem versionsIdentify_of_versioned (ι : Type) [DecidableEq ι] :
    VersionsIdentify ι Versioned := by
  intro ops s hrun id r r' hr hr' _ hver
  obtain ⟨n, valueAt, pending, h⟩ : Tracked s id := by
    refine hrun.invariant (I := fun s => Tracked s id) ⟨0, _, ∅, tracks_make⟩ ?_
    rintro s op s' ⟨n, valueAt, pending, h⟩ hop hn
    exact h.next hop hn
  have hsame : r.version = r'.version := of_decide_eq_true hver
  have hvl := (h.results r hr).2
  rw [hsame, (h.results r' hr').2] at hvl
  exact (Option.some.inj hvl).symm

/-- A client writes 1 and 2 with `set` and reads the key after each: version 0 twice. -/
theorem not_versionsIdentify : ¬ ∀ (ι : Type) (_ : DecidableEq ι),
    VersionsIdentify ι (fun _ _ => True) := by
  intro hiden
  have hrun : (exec next (fun _ _ => true) (make Unit)
      [.set () "mode" (.int 1) .robotMode ⟨.none, 0⟩ 0, .proceed (), .getVersioned () "mode" .int,
        .proceed (), .set () "mode" (.int 2) .robotMode ⟨.none, 0⟩ 5, .proceed (),
        .getVersioned () "mode" .int, .proceed ()]).map (·.results)
      = some [("mode", ⟨.int 1, 0, 0⟩), ("mode", ⟨.int 2, 0, 5⟩)] := by
    decide +kernel
  obtain ⟨s, hs, hres⟩ := Option.map_eq_some_iff.mp hrun
  have hsame := hiden Unit inferInstance _ s (Run.of_exec (fun _ _ _ => trivial) hs) "mode"
    ⟨.int 1, 0, 0⟩ ⟨.int 2, 0, 5⟩ (by simp [hres]) (by simp [hres]) rfl rfl
  cases hsame

end SharedStore
end Mxrc.Datastore
