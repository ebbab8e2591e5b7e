import EndToEnd.Proofs.AuditChain
import EndToEnd.Proofs.SplitBytes
import Mathlib.Data.List.Forall2

/-!
# Edits of a retained log

Entries that pass the check of the chain, are as many as those of a log and end with the same digest
pass for those of the log. If no two of the strings that were hashed collide, they have the same
numbers, times, kinds and digests. What an entry hashes does not say how many devices it names,
though: the bytes of a device may as well be the outcome and the detail of an entry without it. So
edits show as long as each entry names as many devices as before, and an entry that names any can be
put in other words unseen.

Main results:

* `Entry.Alike.eq` — the bytes and the number of devices determine the entry.
* `Log.edits_show` — what passes for a log is the log, if each entry names as many devices.
* `Log.exists_unseen_edit` — an entry that names devices can be edited unseen.
-/

namespace EndToEnd

-- ---------------------------------------------------------------------------
-- Digests and kinds as texts
-- ---------------------------------------------------------------------------

namespace Bytes

/-- A text is as long in hexadecimal as twice its bytes. -/
theorem length_ofText_encode (bytes : Bytes) :
    (ofText (Hex.encode bytes)).length = 2 * bytes.length := by
  have hDigit : ∀ n < 16, (ofText (String.ofList [Hex.digit n])).length = 1 := by decide +kernel
  induction bytes with
  | nil => rfl
  | cons b rest ih =>
    have hByte : b.toNat < 256 := b.toNat_lt
    have hSplit : Hex.encode (b :: rest) = String.ofList [Hex.digit (b.toNat / 16)] ++
        String.ofList [Hex.digit (b.toNat % 16)] ++ Hex.encode rest := by
      rw [← String.ofList_append, Hex.encode, Hex.encode, ← String.ofList_append]
      rfl
    rw [hSplit, ofText_append, ofText_append, List.length_append, List.length_append,
      hDigit _ (by omega), hDigit _ (by omega), ih, List.length_cons]
    omega

end Bytes

/-- Different bytes have different digits. -/
theorem Hex.encode_inj {a b : Bytes} (h : Hex.encode a = Hex.encode b) : a = b := by
  have hRead := congrArg Hex.decode? h
  rwa [Hex.decode?_encode, Hex.decode?_encode, Option.some.injEq] at hRead

namespace Audit

theorem Kind.mem_all (kind : Kind) : kind ∈ Kind.all := by
  cases kind <;> decide

/-- No name of a kind is the beginning of another one. -/
theorem Kind.eq_of_name_append {a b : Kind} {s t : Bytes}
    (h : Bytes.ofText a.name ++ s = Bytes.ofText b.name ++ t) : a = b ∧ s = t := by
  have hBeginning : ∀ a ∈ Kind.all, ∀ b ∈ Kind.all,
      Bytes.ofText a.name <+: Bytes.ofText b.name → a = b := by decide +kernel
  have hKind : a = b := by
    rcases List.prefix_or_prefix_of_prefix ⟨s, rfl⟩ ⟨t, h.symm⟩ with hFirst | hSecond
    · exact hBeginning a a.mem_all b b.mem_all hFirst
    · exact (hBeginning b b.mem_all a a.mem_all hSecond).symm
  cases hKind
  exact ⟨rfl, List.append_cancel_left h⟩

-- ---------------------------------------------------------------------------
-- What an entry hashes
-- ---------------------------------------------------------------------------

/-- The bytes of the devices that an entry names. -/
def deviceBytes (devices : List String) : Bytes :=
  devices.flatMap fun d => Bytes.counted 4 (Bytes.ofText d)

/-- As many devices are split off from what follows, if they are shorter than 4 GiB. -/
theorem eq_of_deviceBytes_append {l l' : List String} {s t : Bytes} (hCount : l.length = l'.length)
    (hShort : ∀ id ∈ l, (Bytes.ofText id).length < UInt32.size)
    (hShort' : ∀ id ∈ l', (Bytes.ofText id).length < UInt32.size)
    (h : deviceBytes l ++ s = deviceBytes l' ++ t) : l = l' ∧ s = t := by
  induction l generalizing l' with
  | nil =>
    cases List.length_eq_zero_iff.1 hCount.symm
    exact ⟨rfl, h⟩
  | cons id rest ih =>
    cases l' with
    | nil => cases hCount
    | cons id' rest' =>
      simp only [deviceBytes, List.flatMap_cons, List.append_assoc] at h
      obtain ⟨hId, hRest⟩ :=
        Bytes.eq_of_counted_append (hShort id (.head _)) (hShort' id' (.head _)) h
      obtain ⟨hDevices, hEnd⟩ := ih (Nat.succ.inj hCount) (fun d hd => hShort d (.tail _ hd))
        (fun d hd => hShort' d (.tail _ hd)) hRest
      exact ⟨by rw [Bytes.ofText_inj.1 hId, hDevices], hEnd⟩

namespace Entry

variable {e e' : Entry}

/-- What an entry hashes behind the name of its kind. -/
def tailBytes (e : Entry) : Bytes :=
  deviceBytes e.devices ++ [if e.outcome = .success then 1 else 0] ++ Bytes.ofText e.detail

/-- What is hashed of an entry, part by part. -/
theorem digestedBytes_eq (e : Entry) :
    e.digestedBytes = Bytes.ofText e.previous ++ (Bytes.bigEndian 8 e.sequence.toNat ++
      (Bytes.bigEndian 8 e.timestamp.toNat ++ (Bytes.ofText e.kind.name ++ e.tailBytes))) := by
  simp only [digestedBytes, tailBytes, deviceBytes, List.append_assoc]

/-- An id is no longer than what is hashed. -/
theorem length_ofText_le {id : String} (h : id ∈ e.devices) :
    (Bytes.ofText id).length ≤ e.digestedBytes.length := by
  have hDevices : (Bytes.ofText id).length ≤ (deviceBytes e.devices).length := by
    have hCounted := (List.sublist_flatten_of_mem (List.mem_map_of_mem
      (f := fun d => Bytes.counted 4 (Bytes.ofText d)) h)).length_le
    rw [← List.flatMap_def] at hCounted
    exact Nat.le_trans (by simp [Bytes.counted]) hCounted
  rw [digestedBytes_eq, tailBytes]
  simp only [List.length_append]
  omega

/-- Entries that differ at most in their devices, outcomes and details. -/
structure SameFrame (e e' : Entry) : Prop where
  previous : e.previous = e'.previous
  sequence : e.sequence = e'.sequence
  timestamp : e.timestamp = e'.timestamp
  kind : e.kind = e'.kind
  digest : e.digest = e'.digest

/-- Entries for which, besides, the same bytes are hashed. -/
structure Alike (e e' : Entry) : Prop extends SameFrame e e' where
  digestedBytes : e.digestedBytes = e'.digestedBytes

theorem Alike.refl (e : Entry) : e.Alike e := ⟨⟨rfl, rfl, rfl, rfl, rfl⟩, rfl⟩

/-- What is hashed tells everything up to the kind of an entry. -/
theorem alike_of_digestedBytes (hPrevious : (Bytes.ofText e.previous).length = 64)
    (hPrevious' : (Bytes.ofText e'.previous).length = 64) (hDigest : e.digest = e'.digest)
    (h : e.digestedBytes = e'.digestedBytes) : e.Alike e' := by
  have hBytes := h
  rw [digestedBytes_eq, digestedBytes_eq] at hBytes
  obtain ⟨hText, hRest⟩ := List.append_inj hBytes (hPrevious.trans hPrevious'.symm)
  obtain ⟨hSequence, hRest⟩ := Bytes.eq_of_bigEndian_append hRest
  obtain ⟨hTimestamp, hRest⟩ := Bytes.eq_of_bigEndian_append hRest
  obtain ⟨hKind, -⟩ := Kind.eq_of_name_append hRest
  exact ⟨⟨Bytes.ofText_inj.1 hText, hSequence, hTimestamp, hKind, hDigest⟩, h⟩

/-- **The bytes and the number of devices determine the entry.** -/
theorem Alike.eq (h : e.Alike e') (hSize : e'.digestedBytes.length < UInt32.size)
    (hCount : e.devices.length = e'.devices.length) : e = e' := by
  -- the same bytes stand before the devices in both, and can be taken away
  have hTail : e.tailBytes = e'.tailBytes := by
    have hBytes := h.digestedBytes
    rw [digestedBytes_eq, digestedBytes_eq, h.previous, h.sequence, h.timestamp, h.kind] at hBytes
    simpa only [List.append_cancel_left_eq] using hBytes
  unfold tailBytes at hTail
  rw [List.append_assoc, List.append_assoc] at hTail
  -- with the number of the devices given, their lengths tell where each of them ends
  obtain ⟨hDevices, hRest⟩ := eq_of_deviceBytes_append hCount
    (fun id hId => Nat.lt_of_le_of_lt (length_ofText_le hId) (h.digestedBytes ▸ hSize))
    (fun id hId => Nat.lt_of_le_of_lt (length_ofText_le hId) hSize) hTail
  obtain ⟨hMark, hDetail⟩ := List.cons.inj hRest
  have hOutcome : e.outcome = e'.outcome := by
    revert hMark
    cases e.outcome <;> cases e'.outcome <;> decide
  obtain ⟨⟨kind, devices, outcome, detail⟩, sequence, timestamp, previous, digest⟩ := e
  obtain ⟨⟨kind', devices', outcome', detail'⟩, sequence', timestamp', previous', digest'⟩ := e'
  cases h.previous
  cases h.sequence
  cases h.timestamp
  cases h.kind
  cases h.digest
  cases hDevices
  cases hOutcome
  cases Bytes.ofText_inj.1 hDetail
  rfl

end Entry

-- ---------------------------------------------------------------------------
-- Two chains that end alike
-- ---------------------------------------------------------------------------

section

variable {P : Primitives} {e : Entry} {l l' : List Entry}

/-- A digest is written with 64 digits. -/
theorem Entry.length_computeDigest (P : Primitives) (e : Entry) :
    (Bytes.ofText (e.computeDigest P)).length = 64 := by
  unfold computeDigest
  rw [Bytes.length_ofText_encode, (P.digest e.digestedBytes).length_eq]

/-- A chain holds if its first entry has its digest, carries on where the one before left off, and
the rest holds behind it. -/
theorem Log.checkChain_cons {before : Option Entry} :
    Log.checkChain P before (e :: l) = .ok () ↔
      e.computeDigest P = e.digest ∧ (∀ b ∈ before, Log.follows b e = true) ∧
        Log.checkChain P (some e) l = .ok () := by
  rw [Log.checkChain]
  by_cases hDigest : e.computeDigest P = e.digest
  · cases before with
    | none => simp [hDigest]
    | some b => cases h : Log.follows b e <;> simp [hDigest, h]
  · simp [hDigest]

/-- Alike entries carry the same digests. -/
theorem map_digest_of_alike (h : l.Forall₂ Entry.Alike l') :
    l.map (·.digest) = l'.map (·.digest) := by
  induction h with
  | nil => rfl
  | cons hFirst _ ih => rw [List.map_cons, List.map_cons, hFirst.digest, ih]

/-- The check of the chain does not tell alike entries apart. -/
theorem Log.checkChain_of_alike (h : l.Forall₂ Entry.Alike l') {before before' : Option Entry}
    (hBefore : Option.Rel Entry.Alike before before') :
    checkChain P before l = checkChain P before' l' := by
  induction h generalizing before before' with
  | nil => rfl
  | @cons e e' rest rest' hFirst _ ih =>
    have hComputed : e.computeDigest P = e'.computeDigest P := by
      unfold Entry.computeDigest
      rw [hFirst.digestedBytes]
    have hFollows : (before.any fun b => !follows b e) = before'.any fun b => !follows b e' := by
      cases hBefore with
      | none => rfl
      | some hb =>
        simp only [Option.any_some, follows, hb.digest, hb.sequence, hFirst.previous,
          hFirst.sequence]
    rw [checkChain, checkChain, hComputed, hFirst.digest, hFirst.sequence, hFollows,
      ih (.some hFirst)]

/-- Whether the first of some entries carries 64 digits for the digest of the entry before it. -/
def StartsFull (l : List Entry) : Prop :=
  ∀ first ∈ l.head?, (Bytes.ofText first.previous).length = 64

/-- Behind an entry of a chain that passes its check, the next one carries 64 digits. -/
theorem startsFull_of_checkChain (hDigest : e.computeDigest P = e.digest)
    (h : Log.checkChain P (some e) l = .ok ()) : StartsFull l := by
  cases l with
  | nil => nofun
  | cons next rest =>
    intro first hFirst
    cases hFirst
    have hFollows := (Log.checkChain_cons.1 h).2.1 e rfl
    unfold Log.follows at hFollows
    rw [Bool.and_eq_true, decide_eq_true_eq] at hFollows
    rw [hFollows.1, ← hDigest]
    exact e.length_computeDigest P

/-- What was hashed for two entries, if they carry one digest and nothing collides. -/
theorem digestedBytes_of_digest {e' : Entry} (hDigest : e.computeDigest P = e.digest)
    (hDigest' : e'.computeDigest P = e'.digest)
    (hCollision : P.digest e.digestedBytes = P.digest e'.digestedBytes →
      e.digestedBytes = e'.digestedBytes)
    (h : e.digest = e'.digest) : e.digestedBytes = e'.digestedBytes := by
  refine hCollision (FixedBytes.ext (Hex.encode_inj ?_))
  exact hDigest.trans (h.trans hDigest'.symm)

/-- No two strings that were hashed for entries in the same place collide. -/
def CollisionFree (P : Primitives) (l l' : List Entry) : Prop :=
  ∀ pair ∈ l.zip l', P.digest pair.1.digestedBytes = P.digest pair.2.digestedBytes →
    pair.1.digestedBytes = pair.2.digestedBytes

/-- **Chains that end with one digest agree from their ends backwards**: entries in the same place
have hashed the same bytes. -/
theorem Log.alike_of_checkChain {before before' : Option Entry}
    (h : checkChain P before l = .ok ()) (h' : checkChain P before' l' = .ok ())
    (hFull : StartsFull l) (hFull' : StartsFull l') (hLength : l.length = l'.length)
    (hLast : l.getLast?.map (·.digest) = l'.getLast?.map (·.digest))
    (hCollision : CollisionFree P l l') :
    l.Forall₂ Entry.Alike l' := by
  induction l generalizing l' before before' with
  | nil =>
    cases List.length_eq_zero_iff.1 hLength.symm
    exact .nil
  | cons e rest ih =>
    cases l' with
    | nil => cases hLength
    | cons e' rest' =>
      obtain ⟨hDigest, -, hRest⟩ := checkChain_cons.1 h
      obtain ⟨hDigest', -, hRest'⟩ := checkChain_cons.1 h'
      -- the later entries agree, and the next ones carry the digests of these two
      have hBoth : e.digest = e'.digest ∧ rest.Forall₂ Entry.Alike rest' := by
        cases rest with
        | nil =>
          cases List.length_eq_zero_iff.1 (Nat.succ.inj hLength).symm
          exact ⟨Option.some.inj hLast, .nil⟩
        | cons next later =>
          cases rest' with
          | nil => cases hLength
          | cons next' later' =>
            have hLater := ih hRest hRest' (startsFull_of_checkChain hDigest hRest)
              (startsFull_of_checkChain hDigest' hRest') (Nat.succ.inj hLength)
              (by simpa only [List.getLast?_cons_cons] using hLast)
              (fun pair hPair => hCollision pair (.tail _ hPair))
            refine ⟨?_, hLater⟩
            obtain ⟨hNext, -⟩ := List.forall₂_cons.1 hLater
            have hFollows := (checkChain_cons.1 hRest).2.1 e rfl
            have hFollows' := (checkChain_cons.1 hRest').2.1 e' rfl
            simp only [follows, Bool.and_eq_true, decide_eq_true_eq] at hFollows hFollows'
            rw [← hFollows.1, ← hFollows'.1, hNext.previous]
      obtain ⟨hSame, hLater⟩ := hBoth
      have hBytes := digestedBytes_of_digest hDigest hDigest' (hCollision (e, e') (.head _)) hSame
      exact .cons (Entry.alike_of_digestedBytes (hFull e rfl) (hFull' e' rfl) hSame hBytes) hLater

/-- Entries for which the same bytes are hashed, and that name as many devices, are the same. -/
theorem eq_of_alike (h : l.Forall₂ Entry.Alike l')
    (hSize : ∀ e ∈ l', e.digestedBytes.length < UInt32.size)
    (hCount : l.map (·.devices.length) = l'.map (·.devices.length)) : l = l' := by
  induction h with
  | nil => rfl
  | cons hFirst hRest ih =>
    obtain ⟨hDevices, hLater⟩ := List.cons.inj hCount
    rw [hFirst.eq (hSize _ (.head _)) hDevices,
      ih (fun e he => hSize e (.tail _ he)) hLater]

/-- Entries that carry on behind 64 digits carry 64 digits. -/
theorem Follow.length_previous {number : Nat} {digest : String} (h : Follow P number digest l)
    (hDigest : (Bytes.ofText digest).length = 64) (hMem : e ∈ l) :
    (Bytes.ofText e.previous).length = 64 := by
  induction l generalizing number digest with
  | nil => cases hMem
  | cons first rest ih =>
    obtain ⟨-, hPrevious, hFirst, hRest⟩ := h
    rcases List.mem_cons.1 hMem with rfl | hMem
    · rw [hPrevious]
      exact hDigest
    · refine ih hRest ?_ hMem
      rw [hFirst]
      exact first.length_computeDigest P

end

-- ---------------------------------------------------------------------------
-- What passes for a log
-- ---------------------------------------------------------------------------

namespace Log

/-- Entries that pass for those of a log: they pass the check of the chain, are as many, and end
with the same digest. -/
structure Passes (P : Primitives) (log : Log) (edited : List Entry) : Prop where
  verifies : checkChain P none edited = .ok ()
  length : edited.length = log.entries.length
  last : edited.getLast?.map (·.digest) = log.entries.getLast?.map (·.digest)

/-- Alike entries pass for those of a log that passes the check. -/
theorem passes_of_alike {P : Primitives} {log : Log} {edited : List Entry}
    (hVerify : log.verify P = .ok ()) (h : edited.Forall₂ Entry.Alike log.entries) :
    log.Passes P edited where
  verifies := (checkChain_of_alike h .none).trans hVerify
  length := h.length_eq
  last := by rw [← List.getLast?_map, map_digest_of_alike h, List.getLast?_map]

end Log

-- ---------------------------------------------------------------------------
-- Edits that do not show
-- ---------------------------------------------------------------------------

/-- The count of a device and the device, the first byte apart, as a text. -/
def spelled (id : String) : String :=
  "\x00\x00" ++ String.singleton (Char.ofNat (Bytes.ofText id).length) ++ id

/-- The count of a short id is text, but for its first byte. -/
theorem counted_eq_spelled {id : String} (h : (Bytes.ofText id).length < 128) :
    Bytes.counted 4 (Bytes.ofText id) = 0 :: Bytes.ofText (spelled id) := by
  have hCount : ∀ n < 128, Bytes.bigEndian 4 n =
      0 :: Bytes.ofText ("\x00\x00" ++ String.singleton (Char.ofNat n)) := by decide +kernel
  rw [Bytes.counted, hCount _ h, spelled, Bytes.ofText_append _ id]
  rfl

namespace Entry

/-- An entry that names no device and went wrong, and whose detail spells the devices, the outcome
and the detail of another one. -/
def disguised (e : Entry) : Entry :=
  match e.devices with
  | [] => e
  | first :: rest => { e with
      devices := []
      outcome := .failure
      detail := spelled first ++ String.join (rest.map fun id => "\x00" ++ spelled id) ++
        (if e.outcome = .success then "\x01" else "\x00") ++ e.detail }

/-- The bytes of short ids are text, each behind a zero. -/
theorem deviceBytes_eq_spelled {rest : List String}
    (h : ∀ id ∈ rest, (Bytes.ofText id).length < 128) :
    deviceBytes rest = Bytes.ofText (String.join (rest.map fun id => "\x00" ++ spelled id)) := by
  induction rest with
  | nil => rfl
  | cons id rest ih =>
    have hFirst : deviceBytes (id :: rest) =
        Bytes.counted 4 (Bytes.ofText id) ++ deviceBytes rest := List.flatMap_cons
    rw [hFirst, counted_eq_spelled (h id (.head _)), ih fun d hd => h d (.tail _ hd),
      List.map_cons, String.join_cons, Bytes.ofText_append, Bytes.ofText_append]
    rfl

/-- **The same bytes are hashed** for an entry and for its disguise. -/
theorem alike_disguised {e : Entry} (h : ∀ id ∈ e.devices, (Bytes.ofText id).length < 128) :
    e.disguised.Alike e := by
  obtain ⟨⟨kind, devices, outcome, detail⟩, sequence, timestamp, previous, digest⟩ := e
  cases devices with
  | nil => exact .refl _
  | cons first rest =>
    refine ⟨⟨rfl, rfl, rfl, rfl, rfl⟩, ?_⟩
    have hFirst : deviceBytes (first :: rest) =
        Bytes.counted 4 (Bytes.ofText first) ++ deviceBytes rest := List.flatMap_cons
    have hMark : Bytes.ofText (if outcome = .success then "\x01" else "\x00") =
        [if outcome = .success then 1 else 0] := by
      cases outcome <;> decide
    rw [digestedBytes_eq, digestedBytes_eq]
    unfold tailBytes
    rw [hFirst, counted_eq_spelled (h first (.head _)),
      deviceBytes_eq_spelled fun d hd => h d (.tail _ hd), ← hMark]
    simp only [disguised, Bytes.ofText_append, List.append_assoc]
    rfl

end Entry

/-- **An entry that names devices can be edited unseen**, if their names are shorter than 128
bytes. -/
theorem Log.exists_unseen_edit {P : Primitives} {log : Log} {e : Entry}
    (hVerify : log.verify P = .ok ()) (hMem : e ∈ log.entries) (hDevices : e.devices ≠ [])
    (hShort : ∀ id ∈ e.devices, (Bytes.ofText id).length < 128) :
    ∃ edited ≠ log.entries, log.Passes P edited := by
  obtain ⟨before, later, hEntries⟩ := List.append_of_mem hMem
  refine ⟨before ++ e.disguised :: later, fun hSame => ?_, passes_of_alike hVerify ?_⟩
  · rw [hEntries, List.append_cancel_left_eq, List.cons.injEq] at hSame
    have hNone : e.disguised.devices = [] := by
      unfold Entry.disguised
      split
      · assumption
      · rfl
    exact hDevices (hSame.1 ▸ hNone)
  · rw [hEntries]
    exact List.rel_append (List.forall₂_same.2 fun e _ => .refl e)
      (.cons (Entry.alike_disguised hShort) (List.forall₂_same.2 fun e _ => .refl e))

namespace Log

/-- A session that was established, as it goes on record. -/
def established : Event :=
  ⟨.sessionEstablished, ["ann", "bob"], .success, "outbound epoch 0 at basic"⟩

/-- An edit that does not show: an establishment that went well is made into one that failed,
between no devices. That the bytes are the same does not depend on how they are hashed. -/
theorem disguise_does_not_show :
    let log := (empty .memory).after .standard [⟨.note established, 1, false⟩]
    let genuine := (empty .memory).entryOf .standard established 1
    let forged : Entry := { genuine with
      devices := []
      outcome := .failure
      detail := "\x00\x00\x03ann\x00\x00\x00\x03bob\x01outbound epoch 0 at basic" }
    log.entries = [genuine] ∧ log.verify .standard = .ok () ∧ log.Passes .standard [forged] ∧
      forged.digestedBytes = genuine.digestedBytes ∧ StartsFull [forged] ∧
      [forged] ≠ log.entries := by
  intro log genuine forged
  have hVerify : log.verify .standard = .ok () :=
    verify_after .standard .memory (List.pairwise_singleton _ _)
  have hAlike : forged.Alike genuine := Entry.alike_disguised (e := genuine) (by decide)
  refine ⟨rfl, hVerify, passes_of_alike hVerify (.cons hAlike .nil), hAlike.digestedBytes, ?_, ?_⟩
  · intro first hFirst
    cases hFirst
    decide
  · intro hSame
    have hDevices : ([] : List String) = established.devices :=
      congrArg (·.devices) (List.cons.inj hSame).1
    cases hDevices

/-- **Edits show** as long as each entry names as many devices as before. What passes for the
entries of a log that passes its check has their numbers, times, kinds and digests if nothing
collides; and it is those entries, if each names as many devices. -/
theorem edits_show (P : Primitives) (sink : Sink) {turns : List Turn} {edited : List Entry}
    (hVerify : ((empty sink).after P turns).verify P = .ok ())
    (hSize : ∀ e ∈ ((empty sink).after P turns).entries, e.digestedBytes.length < UInt32.size)
    (hPasses : ((empty sink).after P turns).Passes P edited) (hFull : StartsFull edited)
    (hCollision : CollisionFree P edited ((empty sink).after P turns).entries) :
    let entries := ((empty sink).after P turns).entries
    edited.Forall₂ Entry.SameFrame entries ∧
      (edited = entries ↔ edited.map (·.devices.length) = entries.map (·.devices.length)) := by
  intro entries
  have hKnown : entries.Sublist ([] ++ (empty sink).recorded P turns) :=
    ((accounts_empty sink).after turns).known
  have hEntriesFull : StartsFull entries := by
    intro first hFirst
    refine (follow_recorded_empty P sink turns).length_previous (by decide) ?_
    exact hKnown.subset (List.mem_of_mem_head? hFirst)
  have hAlike : edited.Forall₂ Entry.Alike entries :=
    alike_of_checkChain hPasses.verifies hVerify hFull hEntriesFull hPasses.length hPasses.last
      hCollision
  exact ⟨hAlike.imp fun _ _ h => h.toSameFrame, fun h => h ▸ rfl, eq_of_alike hAlike hSize⟩

/-- A session is established, and then a peer is revoked. -/
def revokedTurns : List Turn :=
  [⟨.note established, 1, false⟩, ⟨.record ⟨.peerRevoked, ["bob"], .success, "revoked"⟩, 2, false⟩]

/-- Edits of a log that says that a peer was revoked. -/
theorem edits_show_of_revokedTurns :
    let log := (empty .memory).after .plain revokedTurns
    let edited := log.entries.map Entry.disguised
    log.Passes .plain edited ∧ edited.Forall₂ Entry.SameFrame log.entries ∧
      edited ≠ log.entries := by
  intro log edited
  have hVerify : log.verify .plain = .ok () := verify_after .plain .memory (by decide)
  have hSize : ∀ e ∈ log.entries, e.digestedBytes.length < UInt32.size := by decide +kernel
  have hPasses : log.Passes .plain edited :=
    ⟨by decide +kernel, by decide +kernel, by decide +kernel⟩
  have hFull : StartsFull edited := by
    unfold StartsFull
    decide +kernel
  have hCollision : CollisionFree .plain edited log.entries := by
    unfold CollisionFree
    decide +kernel
  have hCount : edited.map (·.devices.length) ≠ log.entries.map (·.devices.length) := by
    decide +kernel
  obtain ⟨hFrame, hSame⟩ := edits_show .plain .memory hVerify hSize hPasses hFull hCollision
  exact ⟨hPasses, hFrame, fun h => hCount (hSame.1 h)⟩

end Log

end Audit

end EndToEnd
