import EndToEnd.Proofs.Steps
import EndToEnd.Proofs.Tables

/-!
# How a device begins

A device that was created or restored has received nothing, has no session to send with, and has
every peer on file under its own id.

Main results:

* `Device.Starts.receiving`, `Device.Starts.current`, `Device.Starts.filed` — the state at the
  beginning of a run.
* `Device.restore_eq_ok` — what a restored device is made of.
-/

namespace EndToEnd

namespace Pairs

/-- No sessions, and no peer is barred. -/
structure Blank (p : Pairs) : Prop where
  receiving : ∀ peer, p.receiving peer = .initial
  live : ∀ peer, (p.sending peer).live = []

theorem blank_empty : Blank .empty := ⟨fun _ => rfl, fun _ => rfl⟩

theorem Blank.raiseCounters {p : Pairs} (h : p.Blank) (counters : Table String UInt64) :
    (p.raiseCounters counters).Blank := by
  refine ⟨fun peer => ?_, fun peer => ?_⟩
  · rw [receiving_raiseCounters, h.receiving]
  · unfold Pairs.raiseCounters
    have hLive := h.live
    clear h
    induction counters.toList generalizing p with
    | nil => exact hLive peer
    | cons e rest ih =>
      refine ih (p := p.raiseCounter e.1 e.2) fun other => ?_
      rw [sending_raiseCounter]
      split
      · exact hLive e.1
      · exact hLive other

end Pairs

namespace Device

variable {P : Primitives} {d : Device}

/-- What a created device is. -/
theorem create_eq_ok {config : Config} {sink : Audit.Sink} {identity : Option Identity}
    {now : UInt64} {random : RandomSource} (h : create P config sink identity now random = .ok d) :
    config.validate = .ok () ∧ d = fresh P config sink identity now random := by
  unfold create at h
  split at h
  · cases h
  · cases h
    exact ⟨‹_›, rfl⟩

/-- A restored device is a created one, which then takes back what a store held. -/
theorem restore_eq_ok {config : Config} {sink : Audit.Sink} {store : Store} {passphrase : String}
    {now : UInt64} {random : RandomSource}
    (h : restore P config sink store passphrase now random = .ok d) :
    ∃ identity d₀, create P config sink identity now random = .ok d₀ ∧
      ((store.load = .ok none ∧ identity = none ∧ d = d₀) ∨
        ∃ state, store.load = .ok (some state) ∧ identityOf P state passphrase = .ok identity ∧
          d = d₀.resume state) := by
  unfold restore at h
  split at h
  · cases h
  · rename_i hLoad
    exact ⟨none, d, h, .inl ⟨hLoad, rfl, rfl⟩⟩
  · rename_i state hLoad
    split at h
    · cases h
    · rename_i identity hIdentity
      cases hCreate : create P config sink identity now random with
      | error failure =>
        rw [hCreate] at h
        cases h
      | ok d₀ =>
        rw [hCreate] at h
        cases h
        exact ⟨identity, d₀, hCreate, .inr ⟨state, hLoad, hIdentity, rfl⟩⟩

/-- A fresh device has no sessions and nobody on file. -/
theorem fresh_blank (config : Config) (sink : Audit.Sink) (identity : Option Identity)
    (now : UInt64)
    (random : RandomSource) :
    (fresh P config sink identity now random).pairs = .empty ∧
      (fresh P config sink identity now random).contacts = .empty config.limits.maxDeviceId := by
  refine ⟨rfl, ?_⟩
  cases identity <;> rfl

theorem Starts.blank (h : Starts P d) :
    d.pairs.Blank ∧ d.deadlines = .empty ∧ d.contacts.Filed := by
  have hCreated {config : Config} {sink : Audit.Sink} {identity : Option Identity} {now : UInt64}
      {random : RandomSource} {d : Device} (h : create P config sink identity now random = .ok d) :
      d.pairs.Blank ∧ d.deadlines = .empty ∧ d.contacts.Filed := by
    obtain ⟨-, rfl⟩ := create_eq_ok h
    obtain ⟨hPairs, hContacts⟩ := fresh_blank (P := P) config sink identity now random
    rw [hPairs, hContacts]
    exact ⟨Pairs.blank_empty, rfl, fun _ _ h => by cases h⟩
  cases h with
  | created h => exact hCreated h
  | restored h =>
    obtain ⟨identity, d₀, hCreate, ⟨-, -, rfl⟩ | ⟨state, -, -, rfl⟩⟩ := restore_eq_ok h
    · exact hCreated hCreate
    · obtain ⟨hBlank, hDeadlines, -⟩ := hCreated hCreate
      refine ⟨hBlank.raiseCounters _, hDeadlines, fun id peer hPeer => ?_⟩
      obtain ⟨peer', -, hEntry⟩ := List.mem_map.1 (Table.mem_of_get?_ofList hPeer)
      cases hEntry
      rfl

/-- A device begins with a configuration that can be used. -/
theorem Starts.validate (h : Starts P d) : d.config.validate = .ok () := by
  cases h with
  | created h =>
    obtain ⟨hValid, rfl⟩ := create_eq_ok h
    exact hValid
  | restored h =>
    obtain ⟨identity, d₀, hCreate, hMade⟩ := restore_eq_ok h
    obtain ⟨hValid, rfl⟩ := create_eq_ok hCreate
    rcases hMade with ⟨-, -, rfl⟩ | ⟨state, -, -, rfl⟩
    · exact hValid
    · exact hValid

/-- Nothing was received at the beginning. -/
theorem Starts.receiving (h : Starts P d) (peer : String) : d.pairs.receiving peer = .initial :=
  h.blank.1.receiving peer

/-- No session sends at the beginning. -/
theorem Starts.current (h : Starts P d) (peer : String) :
    (d.pairs.sending peer).current = none := by
  have hLive := h.blank.1.live peer
  cases hCurrent : (d.pairs.sending peer).current with
  | none => rfl
  | some session =>
    unfold Outbound.live at hLive
    rw [hCurrent] at hLive
    cases hLive

theorem Starts.filed (h : Starts P d) : d.contacts.Filed := h.blank.2.2

/-- In a run, every peer is on file under its own id. -/
theorem Run.filed {d' : Device} {history : History} (hStart : Starts P d)
    (hRun : Run P d history d') : d'.contacts.Filed :=
  hRun.evolves.filed hStart.filed

end Device

end EndToEnd
