import EndToEnd.Proofs.Vouching

/-!
# Chains of signatures

A chain of signatures is followed from the keys on file for a peer, signer by signer, up to the
roots. What a chain has to be is said here without following it: who vouches for whom along it, what
the records say about each signer, and where it ends. Showing it makes the peer vouched for exactly
if it is all of that. Any other chain leaves the records as they were and one entry in the log.

Main results:

* `Evidence.checkLinks_eq_ok_iff_leads`, `Evidence.anchored_iff` — which chains hold.
* `Device.verify_chain_iff` — what showing a chain comes to.
-/

namespace EndToEnd

/-- Nothing on file speaks against a link: if its signer is on file, it is not revoked there, and
has the keys that the link gives for it. -/
def TrustLink.Undisputed (c : Contacts) (link : TrustLink) : Prop :=
  ∀ signer, c.get? link.signer = some signer → signer.isRevoked = false ∧ signer.keys = link.keys

namespace Evidence

variable {P : Primitives} {c : Contacts} {roots : Roots} {subject : String} {keys : PublicKeys}
  {first : TrustLink} {rest links : List TrustLink}

/-- A chain that leads from the keys of a subject to a root. Its first link vouches for the subject
and every other one for the signer of the link before it, nothing on file speaks against any of
them, and the last signer is a root under the keys that the link gives for it. -/
structure Leads (P : Primitives) (c : Contacts) (roots : Roots) (subject : String)
    (keys : PublicKeys) (links : List TrustLink) : Prop where
  first : ∀ link ∈ links.head?, link.vouchesFor P subject keys = true
  onward : links.IsChain fun before link => link.vouchesFor P before.signer before.keys = true
  undisputed : ∀ link ∈ links, link.Undisputed c
  ends : ∃ last ∈ links.getLast?, roots.get? last.signer = some last.keys

/-- A chain of at most eight links that leads to a root. -/
structure Anchored (P : Primitives) (c : Contacts) (roots : Roots) (subject : String)
    (keys : PublicKeys) (links : List TrustLink) : Prop where
  least : 1 ≤ links.length
  most : links.length ≤ 8
  leads : Leads P c roots subject keys links

theorem signerFault?_eq_none_iff {link : TrustLink} :
    signerFault? c link = none ↔ link.Undisputed c := by
  unfold signerFault? TrustLink.Undisputed
  cases c.get? link.signer with
  | none => simp
  | some signer => cases signer.isRevoked <;> simp [ite_eq_iff]

/-- The first link of a chain is dealt with, and the others go on from its signer. -/
theorem leads_cons_cons {next : TrustLink} :
    Leads P c roots subject keys (first :: next :: rest) ↔
      first.vouchesFor P subject keys = true ∧ first.Undisputed c ∧
        Leads P c roots first.signer first.keys (next :: rest) := by
  have hLast : (first :: next :: rest).getLast? = (next :: rest).getLast? :=
    List.getLast?_cons_cons
  constructor
  · intro h
    obtain ⟨hNext, hOnward⟩ := List.isChain_cons_cons.1 h.onward
    have hRest : ∀ link ∈ (next :: rest).head?,
        link.vouchesFor P first.signer first.keys = true := by
      rintro link ⟨⟩
      exact hNext
    exact ⟨h.first first rfl, h.undisputed first (.head _), hRest, hOnward,
      fun link hMem => h.undisputed link (.tail _ hMem), hLast ▸ h.ends⟩
  · rintro ⟨hFirst, hUndisputed, h⟩
    have hHead : ∀ link ∈ (first :: next :: rest).head?, link.vouchesFor P subject keys = true := by
      rintro link ⟨⟩
      exact hFirst
    exact ⟨hHead, List.isChain_cons_cons.2 ⟨h.first next rfl, h.onward⟩,
      List.forall_mem_cons.2 ⟨hUndisputed, h.undisputed⟩, hLast ▸ h.ends⟩

theorem leads_singleton :
    Leads P c roots subject keys [first] ↔
      first.vouchesFor P subject keys = true ∧ first.Undisputed c ∧
        roots.get? first.signer = some first.keys := by
  constructor
  · intro h
    obtain ⟨last, ⟨⟩, hRoot⟩ := h.ends
    exact ⟨h.first first rfl, h.undisputed first (.head _), hRoot⟩
  · rintro ⟨hFirst, hUndisputed, hRoot⟩
    have hHead : ∀ link ∈ [first].head?, link.vouchesFor P subject keys = true := by
      rintro link ⟨⟩
      exact hFirst
    exact ⟨hHead, .singleton first, List.forall_mem_singleton.2 hUndisputed, first, rfl, hRoot⟩

/-- **Following a chain** finds out whether it leads to a root. -/
theorem checkLinks_eq_ok_iff_leads :
    checkLinks P c roots subject keys (first :: rest) = .ok () ↔
      Leads P c roots subject keys (first :: rest) := by
  have hStep (subject : String) (keys : PublicKeys) (first : TrustLink) (rest : List TrustLink) :
      checkLinks P c roots subject keys (first :: rest) = .ok () ↔
        first.vouchesFor P subject keys = true ∧ first.Undisputed c ∧
          checkLinks P c roots first.signer first.keys rest = .ok () := by
    rw [← signerFault?_eq_none_iff]
    conv_lhs => unfold checkLinks
    split
    · simp [*]
    · split <;> simp [*]
  induction rest generalizing subject keys first with
  | nil =>
    rw [hStep, leads_singleton]
    simp [checkLinks]
  | cons next rest ih =>
    rw [hStep, leads_cons_cons]
    exact and_congr_right fun _ => and_congr_right fun _ => ih

/-- **Which chains hold**, for a peer that is not revoked. -/
theorem anchored_iff {peer : Peer} (hTrusted : peer.isRevoked = false) :
    assess P c roots peer (.crossSignature links) = .ok .crossSigned ↔
      Anchored P c roots peer.deviceId peer.keys links := by
  rw [assess_crossSignature_eq_ok_iff]
  cases links with
  | nil => exact iff_of_false (fun h => h.2.1 rfl) fun h => absurd h.least (by decide)
  | cons first rest =>
    rw [checkLinks_eq_ok_iff_leads]
    exact ⟨fun h => ⟨Nat.le_add_left .., h.2.2.1, h.2.2.2.1⟩,
      fun h => ⟨hTrusted, List.cons_ne_nil first rest, h.most, h.leads, rfl⟩⟩

/-- What chains propose is only ever that the peer is vouched for. -/
theorem exists_assess_eq_error {peer : Peer} (hTrusted : peer.isRevoked = false)
    (h : ¬Anchored P c roots peer.deviceId peer.keys links) :
    ∃ fault, assess P c roots peer (.crossSignature links) = .error fault := by
  cases hAssessed : assess P c roots peer (.crossSignature links) with
  | error fault => exact ⟨fault, rfl⟩
  | ok proposed =>
    obtain rfl := (assess_crossSignature_eq_ok_iff.1 hAssessed).2.2.2.2
    exact absurd ((anchored_iff hTrusted).1 hAssessed) h

end Evidence

namespace Device

variable {P : Primitives} {d : Device} {id : String} {peer : Peer} {links : List TrustLink}

/-- Evidence that does not hold leaves one entry in the log. -/
theorem entries_verify_of_fault {evidence : Evidence} {fault : Evidence.Fault}
    (hPeer : d.contacts.get? id = some peer)
    (hFault : evidence.assess P d.contacts d.roots peer = .error fault) :
    (d.verify P id evidence).2.audit.entries = d.audit.entries ++
      [d.audit.entryOf P ⟨.verificationFailed, [id], .failure,
        evidence.name ++ ": " ++ fault.message⟩ d.now] := by
  rw [← d.audit.entries_record]
  unfold verify Contacts.lookup
  rw [hPeer]
  dsimp only
  rw [hFault]
  dsimp only
  split <;> exact (congrArg (·.2.audit.entries) ‹d.record P _ = _›).symm

/-- Evidence that holds leaves an entry about the trust in the peer if it moved, and no other. -/
theorem entries_verify_of_assessed {evidence : Evidence} {proposed : Trust}
    (hPeer : d.contacts.get? id = some peer)
    (hAssessed : evidence.assess P d.contacts d.roots peer = .ok proposed)
    (hMerged : peer.trust.merge proposed ≠ .revoked) :
    (d.verify P id evidence).2.audit.entries = d.audit.entries ++
      if peer.trust.merge proposed = peer.trust then []
      else [d.audit.entryOf P ⟨.trustChanged, [id], .success,
        s!"{peer.trust.name} -> {(peer.trust.merge proposed).name} ({evidence.name})"⟩ d.now] := by
  unfold verify Contacts.lookup
  rw [hPeer]
  dsimp only
  rw [hAssessed]
  dsimp only
  rw [if_neg hMerged]
  split
  · exact (List.append_nil _).symm
  · rw [← d.audit.entries_record]
    split <;> exact (congrArg (·.2.audit.entries) ‹record P _ _ = _›).symm

/-- **A chain counts exactly if it leads to a root.** A peer is on file and not revoked. Showing a
chain of signatures for it goes the same way with and without a look at its sessions.

If the chain has one to eight links, the first vouches for the peer under the keys on file, every
other one for the signer before it, each signer on file is unrevoked with the keys that the link
gives, and the last signer is a root with those keys, then the peer is vouched for as of now, and
the only entry it leaves says so if that is news. If any of that is missing, everyone on file is as
before, and one entry tells of the failure. -/
theorem verify_chain_iff (links : List TrustLink) (hPeer : d.contacts.get? id = some peer)
    (hTrusted : peer.isRevoked = false) :
    let shown := d.verify P id (.crossSignature links)
    let anchored := Evidence.Anchored P d.contacts d.roots peer.deviceId peer.keys links
    d.verifyPeer P id (.crossSignature links) = shown ∧
      (anchored →
        shown.1 = .ok .crossSigned ∧
          (∀ other, shown.2.contacts.get? other =
            if other = id then some { peer with trust := .crossSigned, updatedAt := d.now }
            else d.contacts.get? other) ∧
          shown.2.audit.entries = d.audit.entries ++
            if peer.trust = .crossSigned then []
            else [d.audit.entryOf P ⟨.trustChanged, [id], .success,
              s!"{peer.trust.name} -> cross-signed (cross-signature)"⟩ d.now]) ∧
      (¬anchored →
        shown.1 = (if d.audit.sink.isFull then .error (.storage "disk full") else .ok peer.trust) ∧
          shown.2.contacts = d.contacts ∧
          ∃ fault : Evidence.Fault, shown.2.audit.entries = d.audit.entries ++
            [d.audit.entryOf P ⟨.verificationFailed, [id], .failure,
              "cross-signature: " ++ fault.message⟩ d.now]) ∧
      ((shown.2.contacts.get? id).map (·.trust) = some .crossSigned ↔
        peer.trust = .crossSigned ∨ anchored) := by
  intro shown anchored
  have hMerged : peer.trust.merge .crossSigned = .crossSigned :=
    Trust.merge_crossSigned (of_decide_eq_false hTrusted)
  -- the chain is anchored: the record changes, and the log tells from what to what
  by_cases hAnchored : anchored
  · have hAssessed := (Evidence.anchored_iff hTrusted).2 hAnchored
    obtain ⟨hAnswer, hContacts⟩ := verify_of_assessed hPeer hAssessed (by rw [hMerged]; decide)
    have hEntries := entries_verify_of_assessed hPeer hAssessed (by rw [hMerged]; decide)
    rw [hMerged] at hAnswer hEntries
    have hText (trust : Trust) : s!"{trust.name} -> {Trust.crossSigned.name} ({
        (Evidence.crossSignature links).name})" =
          s!"{trust.name} -> cross-signed (cross-signature)" := by
      cases trust <;> rfl
    have hFile (other : String) : shown.2.contacts.get? other =
        if other = id then some { peer with trust := .crossSigned, updatedAt := d.now }
        else d.contacts.get? other := by
      rw [hContacts, Contacts.get?_update, hPeer]
      show (if other = id then
        some { peer with trust := peer.trust.merge .crossSigned, updatedAt := d.now } else _) = _
      rw [hMerged]
    have hRecord := hFile id
    rw [if_pos rfl] at hRecord
    have hUnrevoked : shown.2.isRevoked id = false := by
      unfold isRevoked
      rw [hRecord]
      rfl
    refine ⟨verifyPeer_eq_verify hUnrevoked, fun _ => ⟨hAnswer, hFile, ?_⟩,
      fun hNot => absurd hAnchored hNot, ?_⟩
    · simp only [eq_comm (a := Trust.crossSigned), hText] at hEntries
      exact hEntries
    · rw [hRecord]
      exact iff_of_true rfl (.inr hAnchored)
  · -- it is not: the record stays, and the log tells of the fault
    obtain ⟨fault, hFault⟩ := Evidence.exists_assess_eq_error hTrusted hAnchored
    obtain ⟨hAnswer, hContacts⟩ := verify_of_fault hPeer hFault
    have hUnrevoked : shown.2.isRevoked id = false := by
      unfold isRevoked
      rw [hContacts, hPeer]
      exact hTrusted
    refine ⟨verifyPeer_eq_verify hUnrevoked, fun h => absurd h hAnchored,
      fun _ => ⟨hAnswer, hContacts, fault, entries_verify_of_fault hPeer hFault⟩, ?_⟩
    rw [hContacts, hPeer]
    show some peer.trust = some .crossSigned ↔ _
    rw [Option.some.injEq]
    exact ⟨.inl, fun h => h.resolve_right hAnchored⟩

/-- Ann vouches for Eve, and Eve for Bob. -/
def eveThenAnn : List TrustLink :=
  let ann := plainIdentity "ann" 1
  let eve := plainIdentity "eve" 5
  let bob := plainIdentity "bob" 3
  [.make .plain eve "bob" (bob.publicKeys .plain), .make .plain ann "eve" (eve.publicKeys .plain)]

/-- Ann, who has Bob on file, counts the word of Eve because she vouched for her herself. The word
of Eve alone changes nothing. -/
theorem verify_chain_iff_of_eveThenAnn :
    let ann := after .plain (plain .standard "ann" 1) [meetPlain "bob" 3]
    ((ann.verify .plain "bob" (.crossSignature eveThenAnn)).2.contacts.get? "bob").map (·.trust) =
        some .crossSigned ∧
      (ann.verify .plain "bob" (.crossSignature (eveThenAnn.take 1))).2.contacts =
        ann.contacts := by
  intro ann
  obtain ⟨bob, hBob⟩ : ∃ bob, ann.contacts.get? "bob" = some bob :=
    Option.isSome_iff_exists.1 (by decide +kernel)
  have hTrusted : ann.isRevoked "bob" = false := by decide +kernel
  unfold isRevoked at hTrusted
  rw [hBob] at hTrusted
  have hAssessed (links : List TrustLink) : (ann.contacts.get? "bob").map
      (fun peer => Evidence.assess .plain ann.contacts ann.roots peer (.crossSignature links)) =
        some (Evidence.assess .plain ann.contacts ann.roots bob (.crossSignature links)) := by
    rw [hBob]
    rfl
  have hAnchored : Evidence.Anchored .plain ann.contacts ann.roots bob.deviceId bob.keys
      eveThenAnn := by
    rw [← Evidence.anchored_iff hTrusted, ← Option.some.injEq, ← hAssessed]
    decide +kernel
  have hAlone : ¬Evidence.Anchored .plain ann.contacts ann.roots bob.deviceId bob.keys
      (eveThenAnn.take 1) := by
    rw [← Evidence.anchored_iff hTrusted, ← Option.some.injEq, ← hAssessed]
    decide +kernel
  exact ⟨(verify_chain_iff eveThenAnn hBob hTrusted).2.2.2.2 (.inr hAnchored),
    ((verify_chain_iff (eveThenAnn.take 1) hBob hTrusted).2.2.1 hAlone).2.1⟩

end Device

end EndToEnd
