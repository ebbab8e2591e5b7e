import EndToEnd.Proofs.Records
import EndToEnd.Proofs.SinkMoods

/-!
# Vouching for peers

A device begins with itself as a root. Roots are kept by id, and only adding one changes them; what
is added replaces what was there, also under the id of the device itself. The word of a device about
its own peers counts for it exactly as long as the keys that were last added under its own id, if
any were, are its own.

Main results:

* `Device.roots_step`, `Device.Run.roots` — which roots are trusted behind a run.
* `Device.crossSignPeer_of_root`, `Device.crossSignPeer_of_not_root` — what becomes of a peer that
  the device vouches for.
* `Device.own_word_counts_iff` — both.
* `Device.root_under_own_id_replaced` — other keys under the own id.
-/

namespace EndToEnd

/-- The keys that were last added under an id. -/
def SavedRoot.lastKeys? (id : String) (roots : List SavedRoot) : Option PublicKeys :=
  (roots.reverse.find? (·.deviceId = id)).map (·.keys)

/-- Of the roots under an id, the last one that was added counts. -/
theorem SavedRoot.lastKeys?_concat (id : String) (roots : List SavedRoot) (root : SavedRoot) :
    lastKeys? id (roots ++ [root]) =
      if id = root.deviceId then some root.keys else lastKeys? id roots := by
  unfold lastKeys?
  rw [List.reverse_concat, List.find?_cons]
  by_cases hSame : root.deviceId = id
  · rw [if_pos hSame.symm]
    simp [hSame]
  · rw [if_neg (Ne.symm hSame)]
    simp [hSame]

/-- The root that an operation adds, if it adds one. -/
def History.root? : Operation × Reply → Option SavedRoot
  | (.addRoot id keys, _) => some ⟨id, keys⟩
  | _ => none

/-- The roots that were added, earliest first. -/
def History.roots (h : History) : List SavedRoot := h.filterMap root?

/-- Unless a peer is revoked, a word for it makes it vouched for. -/
theorem Trust.merge_crossSigned {trust : Trust} (h : trust ≠ .revoked) :
    trust.merge .crossSigned = .crossSigned := by
  cases trust <;> first | rfl | exact absurd rfl h

/-- The word that a device gives holds under its own keys. -/
theorem TrustLink.vouchesFor_make {P : Primitives} (hP : P.Lawful) (signer : Identity)
    (subject : String) (keys : PublicKeys) :
    (make P signer subject keys).vouchesFor P subject keys = true :=
  hP.verify_sign ..

namespace Device

variable {P : Primitives} {d d' d₀ : Device} {history : History}

-- ---------------------------------------------------------------------------
-- Roots
-- ---------------------------------------------------------------------------

/-- What is put on record leaves the roots alone. -/
theorem roots_record {event : Audit.Event} {result : Except Failure Unit}
    (h : d.record P event = (result, d')) : d'.roots = d.roots :=
  (congrArg (·.2.roots) h).symm

/-- Work on the pairs leaves the roots alone. -/
theorem roots_onPairs {α : Type} {op : Setting → Work Pairs → α × Work Pairs} {result : α}
    (h : d.onPairs P op = (result, d')) : d'.roots = d.roots :=
  (congrArg (·.2.roots) h).symm

/-- A message leaves the roots alone. -/
theorem roots_send (peer : String) (level : Level) (plaintext : Bytes) (d : Device) :
    (d.send P peer level plaintext).2.roots = d.roots := by
  unfold send
  split
  · unfold refuseUnknown
    split <;> exact (congrArg (·.2.roots) ‹onPairs P _ d = _›).symm
  · split
    · rfl
    · split
      · rfl
      · unfold sendTo
        split <;> exact roots_onPairs ‹_›

/-- An envelope leaves the roots alone, whatever becomes of it. -/
theorem roots_receive (bytes : Bytes) (d : Device) : (d.receive P bytes).2.roots = d.roots := by
  have hReject (sender : Option String) (failure : Failure) (d : Device) :
      (d.reject P sender failure).2.roots = d.roots := by
    unfold reject
    split <;> exact roots_record ‹_›
  unfold receive
  split
  · exact hReject ..
  · unfold receiveEnvelope
    split
    · exact hReject ..
    · split
      · exact (hReject ..).trans (roots_onPairs ‹_›)
      · exact roots_onPairs ‹_›

/-- Meeting a peer makes no root of it. -/
theorem roots_remember (id : String) (keys : PublicKeys) (d : Device) :
    (d.remember P id keys).2.roots = d.roots := by
  unfold remember
  split
  · rfl
  · split <;> exact roots_record ‹_›
  · rfl

/-- Importing a bundle makes no root of its peer. -/
theorem roots_importBundle (text : Bytes) (d : Device) :
    (d.importBundle P text).2.roots = d.roots := by
  unfold importBundle
  split
  · rfl
  · split
    · rfl
    · exact roots_remember ..

/-- Evidence is about trust in peers, and leaves the roots alone. -/
theorem roots_applyEvidence (id : String) (evidence : Evidence) (d : Device) :
    (d.applyEvidence P id evidence).2.roots = d.roots := by
  have hVerified : (d.verify P id evidence).2.roots = d.roots := by
    rcases verify_cases (P := P) id evidence d with ⟨log, hLog⟩ | ⟨proposed, log, hLog⟩ <;>
      rw [hLog]
  unfold applyEvidence
  dsimp only
  split <;> exact hVerified

/-- Vouching for a peer makes no root of it. -/
theorem roots_crossSignPeer (id : String) (d : Device) :
    (d.crossSignPeer P id).2.roots = d.roots := by
  unfold crossSignPeer
  split
  · rfl
  · exact roots_applyEvidence ..

theorem roots_rotate (peer : String) (d : Device) : (d.rotate P peer).2.roots = d.roots := by
  unfold rotate
  split
  · exact roots_onPairs ‹_›
  · rename_i hRotated
    split <;> exact (roots_record ‹_›).trans (roots_onPairs hRotated)

/-- Closing leaves the roots alone. -/
theorem roots_shutdown (d : Device) : (d.shutdown P).2.roots = d.roots := by
  unfold shutdown
  dsimp only
  split <;> exact (congrArg (·.2.roots) ‹flushAudit _ = _›).symm

/-- Saving leaves the roots alone. -/
theorem roots_save (store : Store) (passphrase : String) (d : Device) :
    (d.save P store passphrase).2.roots = d.roots := by
  unfold save
  dsimp only
  split <;> rfl

/-- **Only adding a root changes the roots.** -/
theorem roots_step (d : Device) (op : Operation) :
    (d.step P op).2.roots =
      match History.root? (op, (d.step P op).1) with
      | some root => d.roots.insert root.deviceId root.keys
      | none => d.roots := by
  cases op with
  | send peer level plaintext => exact roots_send ..
  | receive bytes => exact roots_receive ..
  | remember id keys => exact roots_remember ..
  | importBundle text => exact roots_importBundle ..
  | verify id evidence => exact roots_applyEvidence ..
  | revoke id reason => exact roots_applyEvidence id (.revocation reason) d
  | crossSignPeer id => exact roots_crossSignPeer ..
  | rotate peer => exact roots_rotate ..
  | shutdown => exact roots_shutdown ..
  | save store passphrase => exact roots_save ..
  | addRoot | request | maintain | flushAudit | sweepAudit | setClock | setSink => rfl

/-- The roots of a device are those that were added one after the other. -/
def Rooted (d : Device) (added : List SavedRoot) : Prop :=
  ∀ id, d.roots.get? id = SavedRoot.lastKeys? id added

/-- One more root under an id takes the place of the one before. -/
theorem Rooted.insert {added : List SavedRoot} (h : d.Rooted added) (root : SavedRoot)
    (hRoots : d'.roots = d.roots.insert root.deviceId root.keys) :
    d'.Rooted (added ++ [root]) := by
  intro id
  rw [hRoots, Table.get?_insert, SavedRoot.lastKeys?_concat, h id]

/-- **Which roots are trusted behind a run.** -/
theorem Run.roots {added : List SavedRoot} (h : d.Rooted added) (hRun : Run P d history d') :
    d'.Rooted (added ++ history.roots) := by
  induction hRun with
  | start =>
    rw [show History.roots [] = [] from rfl, List.append_nil]
    exact h
  | @step history d₁ op before returns ih =>
    have hStep := roots_step (P := P) d₁ op
    have hRoots : History.roots (history ++ [(op, (d₁.step P op).1)]) =
        history.roots ++ (History.root? (op, (d₁.step P op).1)).toList := by
      unfold History.roots
      rw [List.filterMap_append, List.filterMap_cons]
      split <;> simp [*]
    rw [hRoots, ← List.append_assoc]
    cases hAdded : History.root? (op, (d₁.step P op).1) with
    | none =>
      rw [hAdded] at hStep
      intro id
      rw [hStep, Option.toList_none, List.append_nil]
      exact ih id
    | some root =>
      rw [hAdded] at hStep
      exact ih.insert root hStep

-- ---------------------------------------------------------------------------
-- Devices that begin alone
-- ---------------------------------------------------------------------------

/-- A device as a root. -/
def ownRoot (P : Primitives) (d : Device) : SavedRoot := ⟨d.id, d.identity.publicKeys P⟩

/-- A device that begins with nobody on file, and the roots that it is given then: none if it was
just created, those of the store if it was restored. -/
inductive BeginsAlone (P : Primitives) (d : Device) : List SavedRoot → Prop where
  | created {config : Config} {sink : Audit.Sink} {identity : Option Identity} {now : UInt64}
      {random : RandomSource} (h : create P config sink identity now random = .ok d) :
      BeginsAlone P d []
  | restored {config : Config} {sink : Audit.Sink} {store : Store} {passphrase : String}
      {now : UInt64} {random : RandomSource} {state : SavedState}
      (h : restore P config sink store passphrase now random = .ok d)
      (holds : store.load = .ok (some state)) (nobody : state.peers = []) :
      BeginsAlone P d state.roots

/-- A device that was just created is its own root and trusts no other. -/
theorem rooted_created {config : Config} {sink : Audit.Sink} {identity : Option Identity}
    {now : UInt64} {random : RandomSource}
    (h : create P config sink identity now random = .ok d) : d.Rooted [d.ownRoot P] := by
  obtain ⟨-, rfl⟩ := create_eq_ok h
  intro id
  show (Table.empty.insert _ _).get? id = SavedRoot.lastKeys? id ([] ++ [_])
  rw [Table.get?_insert, SavedRoot.lastKeys?_concat]
  rfl

/-- The roots of a store are added to those of the device. -/
theorem Rooted.resume {added : List SavedRoot} (h : d.Rooted added) (state : SavedState) :
    (d.resume state).Rooted (added ++ state.roots) := by
  show ∀ id, (state.roots.foldl (fun roots root => roots.insert root.deviceId root.keys)
    d.roots).get? id = _
  have hFold (saved : List SavedRoot) (d : Device) (added : List SavedRoot)
      (h : d.Rooted added) (id : String) :
      (saved.foldl (fun roots root => roots.insert root.deviceId root.keys) d.roots).get? id =
        SavedRoot.lastKeys? id (added ++ saved) := by
    induction saved generalizing d added with
    | nil =>
      rw [List.append_nil]
      exact h id
    | cons root rest ih =>
      rw [List.append_cons]
      exact ih (d.addRoot root.deviceId root.keys) _ (h.insert root rfl)
  exact hFold state.roots d added h

/-- A device that begins alone has nobody on file, and trusts itself before anyone else. -/
theorem BeginsAlone.rooted {given : List SavedRoot} (h : BeginsAlone P d given) :
    d.contacts.Orderly d.id ∧ d.Rooted (d.ownRoot P :: given) := by
  cases h with
  | created h => exact ⟨(tidy_created "" h).orderly, rooted_created h⟩
  | @restored _ _ _ _ _ _ state h holds nobody =>
    obtain ⟨identity, d₁, hCreate, ⟨hEmpty, -, -⟩ | ⟨state', hLoad, -, rfl⟩⟩ := restore_eq_ok h
    · rw [holds] at hEmpty
      cases hEmpty
    · rw [holds] at hLoad
      cases hLoad
      refine ⟨fun id peer hPeer => ?_, (rooted_created hCreate).resume state⟩
      have hNobody : (d₁.resume state).contacts.get? id = none := by
        show (Table.ofList (state.peers.map _)).get? id = none
        rw [nobody]
        rfl
      rw [hNobody] at hPeer
      cases hPeer

-- ---------------------------------------------------------------------------
-- Vouching
-- ---------------------------------------------------------------------------

/-- A device's own word about a peer is assessed by what it trusts under its own id. -/
theorem assess_own (hP : P.Lawful) (hOwn : d.contacts.get? d.id = none) {peer : Peer}
    (hTrusted : peer.isRevoked = false) :
    Evidence.assess P d.contacts d.roots peer
        (.crossSignature [.make P d.identity peer.deviceId peer.keys]) =
      if d.roots.get? d.id = some (d.identity.publicKeys P) then .ok .crossSigned
      else .error .noRoot := by
  have hFault : Evidence.signerFault? d.contacts (.make P d.identity peer.deviceId peer.keys) =
      none := by
    unfold Evidence.signerFault?
    rw [show d.contacts.get? (TrustLink.make P d.identity peer.deviceId peer.keys).signer = none
      from hOwn]
  unfold Evidence.assess
  rw [hTrusted]
  simp only [Bool.false_eq_true, if_false, List.isEmpty_cons, List.length_singleton]
  rw [if_neg (by decide : ¬Evidence.maxLinks < 1)]
  unfold Evidence.checkLinks
  rw [hFault]
  dsimp only
  rw [if_pos (TrustLink.vouchesFor_make hP ..)]
  unfold Evidence.checkLinks
  show (if d.roots.get? d.id = some (d.identity.publicKeys P) then _ else _ : Except _ _).map _ = _
  split <;> rfl

/-- What vouching comes to, if the peer is on file. -/
theorem crossSignPeer_eq {id : String} {peer : Peer} (hPeer : d.contacts.get? id = some peer) :
    d.crossSignPeer P id =
      d.verifyPeer P id (.crossSignature [.make P d.identity id peer.keys]) := by
  unfold crossSignPeer crossSign Contacts.lookup
  rw [hPeer]
  rfl

/-- If the peer is not revoked then, what becomes of evidence is what its assessment comes to. -/
theorem verifyPeer_eq_verify {id : String} {evidence : Evidence}
    (h : (d.verify P id evidence).2.isRevoked id = false) :
    d.verifyPeer P id evidence = d.verify P id evidence := by
  unfold verifyPeer applyEvidence
  generalize d.verify P id evidence = verified at *
  obtain ⟨result, d₁⟩ := verified
  dsimp only at *
  rw [h]
  cases result <;> rfl

variable {id : String} {peer : Peer}

/-- Evidence that holds moves the trust in the peer. -/
theorem verify_of_assessed {evidence : Evidence} {proposed : Trust}
    (hPeer : d.contacts.get? id = some peer)
    (hAssessed : evidence.assess P d.contacts d.roots peer = .ok proposed)
    (hMerged : peer.trust.merge proposed ≠ .revoked) :
    (d.verify P id evidence).1 = .ok (peer.trust.merge proposed) ∧
      (d.verify P id evidence).2.contacts =
        d.contacts.update id d.now (evidence.apply proposed) := by
  unfold verify Contacts.lookup
  rw [hPeer]
  dsimp only
  rw [hAssessed]
  dsimp only
  split
  · exact ⟨rfl, rfl⟩
  · -- such an entry can wait for delivery
    exact ⟨rfl, rfl⟩

/-- Evidence that does not hold leaves everyone on file as they are. It is put on record, if the sink
takes it. -/
theorem verify_of_fault {evidence : Evidence} {fault : Evidence.Fault}
    (hPeer : d.contacts.get? id = some peer)
    (hFault : evidence.assess P d.contacts d.roots peer = .error fault) :
    (d.verify P id evidence).1 =
        (if d.audit.sink.isFull then .error (.storage "disk full") else .ok peer.trust) ∧
      (d.verify P id evidence).2.contacts = d.contacts := by
  have hVerify : d.verify P id evidence = d.recording P
      ⟨.verificationFailed, [id], .failure, evidence.name ++ ": " ++ fault.message⟩
      (.ok peer.trust) := by
    unfold verify Contacts.lookup
    rw [hPeer]
    dsimp only
    rw [hFault]
    rfl
  rw [hVerify, recording_eq]
  exact ⟨rfl, rfl⟩

/-- **The word of a device that is its own root** makes a peer vouched for. -/
theorem crossSignPeer_of_root (hP : P.Lawful) (hOrderly : d.contacts.Orderly d.id)
    (hPeer : d.contacts.get? id = some peer) (hTrusted : peer.isRevoked = false)
    (hRoot : d.roots.get? d.id = some (d.identity.publicKeys P)) :
    (d.crossSignPeer P id).1 = .ok .crossSigned ∧
      (d.crossSignPeer P id).2.contacts.get? id =
        some { peer with trust := .crossSigned, updatedAt := d.now } := by
  have hAssessed := assess_own hP hOrderly.get?_own hTrusted
  rw [if_pos hRoot, (hOrderly id peer hPeer).deviceId] at hAssessed
  have hMerged : peer.trust.merge .crossSigned = .crossSigned :=
    Trust.merge_crossSigned (of_decide_eq_false hTrusted)
  obtain ⟨hAnswer, hContacts⟩ := verify_of_assessed hPeer hAssessed (by rw [hMerged]; decide)
  have hRecord : (d.verify P id (.crossSignature [.make P d.identity id peer.keys])).2.contacts.get?
      id = some { peer with trust := .crossSigned, updatedAt := d.now } := by
    rw [hContacts, Contacts.get?_update, if_pos rfl, hPeer]
    show some { peer with trust := peer.trust.merge .crossSigned, updatedAt := d.now } = _
    rw [hMerged]
  rw [crossSignPeer_eq hPeer, verifyPeer_eq_verify (by unfold isRevoked; rw [hRecord]; rfl),
    hAnswer, hMerged]
  exact ⟨rfl, hRecord⟩

/-- **The word of a device that is not its own root** changes nobody on file. -/
theorem crossSignPeer_of_not_root (hP : P.Lawful) (hOrderly : d.contacts.Orderly d.id)
    (hPeer : d.contacts.get? id = some peer) (hTrusted : peer.isRevoked = false)
    (hRoot : d.roots.get? d.id ≠ some (d.identity.publicKeys P)) :
    (d.crossSignPeer P id).1 =
        (if d.audit.sink.isFull then .error (.storage "disk full") else .ok peer.trust) ∧
      (d.crossSignPeer P id).2.contacts = d.contacts := by
  have hAssessed := assess_own hP hOrderly.get?_own hTrusted
  rw [if_neg hRoot, (hOrderly id peer hPeer).deviceId] at hAssessed
  obtain ⟨hAnswer, hContacts⟩ := verify_of_fault hPeer hAssessed
  rw [crossSignPeer_eq hPeer, verifyPeer_eq_verify]
  · exact ⟨hAnswer, hContacts⟩
  · unfold isRevoked
    rw [hContacts, hPeer]
    exact hTrusted

-- ---------------------------------------------------------------------------
-- Every run
-- ---------------------------------------------------------------------------

/-- What is on file stays in order. -/
theorem Run.orderly (hRun : Run P d history d') (h : d.contacts.Orderly d.id) :
    d'.contacts.Orderly d'.id := by
  induction hRun with
  | start => exact h
  | step op _ _ ih =>
    rw [id_step]
    exact (changes_step _ op).orderly ih

/-- **The word of a device counts for it exactly while it is its own root.** A device begins with
nobody on file. Under every id it trusts the keys that were last added, counting itself as added
first. If the keys under its own id are its own, vouching for a peer that is not revoked makes that
peer vouched for, and the answer says so. If they are others, it changes nobody on file.

In the run no counter passes `2 ^ 64 - 1`. -/
theorem own_word_counts_iff {given : List SavedRoot} (hP : P.Lawful)
    (hAlone : BeginsAlone P d₀ given) (hRun : Run P d₀ history d) :
    let trusted (id : String) : Option PublicKeys :=
      SavedRoot.lastKeys? id (d.ownRoot P :: (given ++ history.roots))
    (∀ id, d.roots.get? id = trusted id) ∧
      ∀ id peer, d.contacts.get? id = some peer → peer.isRevoked = false →
        (trusted d.id = some (d.identity.publicKeys P) →
          (d.crossSignPeer P id).1 = .ok .crossSigned ∧
            (d.crossSignPeer P id).2.contacts.get? id =
              some { peer with trust := .crossSigned, updatedAt := d.now }) ∧
        (trusted d.id ≠ some (d.identity.publicKeys P) →
          (d.crossSignPeer P id).1 =
              (if d.audit.sink.isFull then .error (.storage "disk full") else .ok peer.trust) ∧
            (d.crossSignPeer P id).2.contacts = d.contacts) := by
  intro trusted
  obtain ⟨hOrderly₀, hRooted₀⟩ := hAlone.rooted
  have hOwn : d₀.ownRoot P = d.ownRoot P := by
    unfold ownRoot Device.id
    rw [hRun.evolves.identity]
  have hRooted : ∀ id, d.roots.get? id = trusted id := by
    have hRoots := hRun.roots hRooted₀
    rw [hOwn] at hRoots
    exact hRoots
  have hOrderly := hRun.orderly hOrderly₀
  refine ⟨hRooted, fun id peer hPeer hTrusted => ⟨fun hOwnKeys => ?_, fun hOtherKeys => ?_⟩⟩
  · exact crossSignPeer_of_root hP hOrderly hPeer hTrusted ((hRooted d.id).trans hOwnKeys)
  · exact crossSignPeer_of_not_root hP hOrderly hPeer hTrusted (hRooted d.id ▸ hOtherKeys)

/-- Ann meets Bob, and is given Eve's keys for a root under her own id, then her own again. -/
def healedOps : List Operation :=
  [meetPlain "bob" 3, .addRoot "ann" ((plainIdentity "eve" 5).publicKeys .plain),
    .addRoot "ann" ((plainIdentity "ann" 1).publicKeys .plain)]

/-- Ann, whose word counts again once her own keys are back. -/
theorem own_word_counts_iff_of_healedOps :
    let ann := after .plain (plain .standard "ann" 1) healedOps
    ann.roots.get? "ann" = some (ann.identity.publicKeys .plain) ∧
      (ann.crossSignPeer .plain "bob").1 = .ok .crossSigned := by
  intro ann
  have hAlone : BeginsAlone .plain (plain .standard "ann" 1) [] :=
    .created (create_plain "ann" 1 rfl)
  have hRun : Run .plain (plain .standard "ann" 1)
      (during .plain (plain .standard "ann" 1) healedOps) ann := run_after (by decide +kernel)
  have hOwnKeys : SavedRoot.lastKeys? ann.id (ann.ownRoot .plain :: ([] ++
      (during .plain (plain .standard "ann" 1) healedOps).roots)) =
        some (ann.identity.publicKeys .plain) := by decide +kernel
  obtain ⟨bob, hBob⟩ : ∃ bob, ann.contacts.get? "bob" = some bob :=
    Option.isSome_iff_exists.1 (by decide +kernel)
  have hTrusted : ann.isRevoked "bob" = false := by decide +kernel
  unfold isRevoked at hTrusted
  rw [hBob] at hTrusted
  obtain ⟨hRoots, hVouches⟩ := own_word_counts_iff Primitives.plain_lawful hAlone hRun
  exact ⟨(hRoots ann.id).trans hOwnKeys, ((hVouches "bob" bob hBob hTrusted).1 hOwnKeys).1⟩

/-- **The root under the own id can be replaced.** Ann meets Bob and is given Eve's keys for a root
under her own id. Then she does not trust herself any more, and Bob, whom she vouches for, stays
unverified. -/
theorem root_under_own_id_replaced :
    let eve := (plainIdentity "eve" 5).publicKeys .plain
    let ann := after .plain (plain .standard "ann" 1) [meetPlain "bob" 3, .addRoot "ann" eve]
    allReturn .plain (plain .standard "ann" 1) [meetPlain "bob" 3, .addRoot "ann" eve] = true ∧
      ann.roots.get? "ann" = some eve ∧ eve ≠ ann.identity.publicKeys .plain ∧
      ann.isRevoked "bob" = false ∧
      (ann.crossSignPeer .plain "bob").1 = .ok .unverified ∧
      ((ann.crossSignPeer .plain "bob").2.contacts.get? "bob").map (·.trust) =
        some .unverified := by
  decide +kernel

end Device

end EndToEnd
