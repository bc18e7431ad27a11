import LogSequencing.Proofs.Checksum
import LogSequencing.Proofs.Log.RoundTrip
import LogSequencing.Proofs.Log.Scan
import Mathlib.Data.List.Forall2

/-!
# Damaged entries

An entry whose length field is intact is framed: a scan finds its end (`Entry.IsFramed`), whatever
became of the rest. If the checksum in it no longer fits, the entry is not decoded
(`Entry.decode_of_not_isSound`) but still skipped as a whole (`Scan.ofOctets_entry_append`), so that
every entry after it is found.

Damage is local if it lies in the checksum or within four octets in a row behind it. The checksum
detects all such damage (`Entry.IsLocalDamage.isCorrupted`), and so it costs no more than the entry
that it befell (`Scan.ofOctets_set_damaged`).
-/

set_option autoImplicit false
set_option relaxedAutoImplicit false

namespace LogSequencing

namespace Entry

/-! ### Framed entries -/

/-- A scan finds the end of the entry: it begins with the number of octets that follow, which is not
too great, and they have room for a checksum. -/
structure IsFramed (entry : Octets) : Prop where
  length_eq : Octets.toNatLE (entry.take 4) = (entry.drop 4).length
  four_le : 4 ≤ (entry.drop 4).length
  le_maxLength : (entry.drop 4).length ≤ maxLength

/-- An entry that was damaged behind its length, as its checksum shows. -/
structure IsCorrupted (entry damaged : Octets) : Prop where
  length_eq : damaged.length = entry.length
  take_eq : damaged.take 4 = entry.take 4
  not_isSound : ¬ IsSound (damaged.drop 4)

theorem IsCorrupted.isFramed {entry damaged : Octets} (h : IsCorrupted entry damaged)
    (hframed : IsFramed entry) : IsFramed damaged := by
  have hlength : (damaged.drop 4).length = (entry.drop 4).length := by
    rw [List.length_drop, List.length_drop, h.length_eq]
  refine ⟨?_, ?_, ?_⟩
  · rw [h.take_eq, hlength]
    exact hframed.length_eq
  · exact hlength ▸ hframed.four_le
  · exact hlength ▸ hframed.le_maxLength

theorem IsCorrupted.exists_mismatch (now : Instant) {entry damaged : Octets}
    (h : IsCorrupted entry damaged) (hframed : IsFramed entry) :
    ∃ offset stored actual, stored ≠ actual ∧ ∀ rest,
      decode now (damaged.drop 4 ++ rest) (Octets.toNatLE (damaged.take 4)) =
        .error (.checksumMismatch offset stored actual) := by
  have hdamaged := h.isFramed hframed
  refine ⟨claimedOffset ((damaged.drop 4).drop 4), _, _, h.not_isSound, fun rest ↦ ?_⟩
  rw [hdamaged.length_eq, decode_append_of_le now rest hdamaged.four_le]
  exact decode_of_not_isSound now hdamaged.four_le h.not_isSound

/-- The checksum of a payload is the only one that is right. -/
theorem IsSound.eq_of_drop_eq {content other : Octets} (h : IsSound content) (hother : IsSound other)
    (hlength : content.length = other.length) (hpayload : content.drop 4 = other.drop 4) :
    content = other := by
  unfold IsSound at h hother
  rw [hpayload, ← hother] at h
  have hstored : content.take 4 = other.take 4 :=
    Octets.eq_of_ofNat_toNatLE (by rw [List.length_take, List.length_take, hlength])
      (List.length_take_le 4 content) h
  rw [← List.take_append_drop 4 content, ← List.take_append_drop 4 other, hstored, hpayload]

theorem isFramed_encoded {event : Event} (hfits : (content event).length ≤ maxLength) :
    IsFramed (encoded event) := by
  refine ⟨?_, ?_, ?_⟩
  · rw [take_encoded, drop_encoded,
      Octets.toNatLE_ofNatLE_of_lt (Nat.lt_of_le_of_lt hfits (by decide))]
  · rw [drop_encoded]
    exact four_le_length_content event
  · rwa [drop_encoded]

theorem isFramed_encoded_blank (offset : UInt64) : IsFramed (encoded (.blank offset)) := by
  apply isFramed_encoded
  rw [Event.length_content_blank]
  decide

/-! ### Local damage -/

/-- Other octets took the place of some in an entry. They lie all in its checksum, or they are at most
four in a row behind it. -/
def IsLocalDamage (entry damaged : Octets) : Prop :=
  ∃ front octets others back : Octets,
    entry = front ++ octets ++ back ∧ damaged = front ++ others ++ back ∧
      others.length = octets.length ∧ others ≠ octets ∧
      (4 ≤ front.length ∧ front.length + octets.length ≤ 8 ∨
        8 ≤ front.length ∧ octets.length ≤ 4)

/-- Local damage leaves the length of an entry alone, and its checksum shows. -/
theorem IsLocalDamage.isCorrupted {entry damaged : Octets} (h : IsLocalDamage entry damaged)
    (hsound : IsSound (entry.drop 4)) : IsCorrupted entry damaged := by
  obtain ⟨front, octets, others, back, rfl, rfl, hlength, hne, hplace⟩ := h
  have hfour : 4 ≤ front.length := by omega
  have htake (middle : Octets) : (front ++ middle ++ back).take 4 = front.take 4 := by
    rw [List.append_assoc, List.take_append_of_le_length hfour]
  have hdrop (middle : Octets) :
      (front ++ middle ++ back).drop 4 = front.drop 4 ++ middle ++ back := by
    rw [List.append_assoc, List.drop_append_of_le_length hfour, List.append_assoc]
  refine ⟨by simp only [List.length_append, hlength], by rw [htake, htake], ?_⟩
  rw [hdrop] at hsound ⊢
  generalize hhead : front.drop 4 = head at hsound ⊢
  have hheadLength : head.length = front.length - 4 := by rw [← hhead, List.length_drop]
  rcases hplace with ⟨-, hend⟩ | ⟨hstart, hshort⟩
  · -- The payload is as before, so that another checksum cannot be right as well.
    intro hsound'
    have hpayload (middle : Octets) (hmiddle : middle.length = octets.length) :
        (head ++ middle ++ back).drop 4 = back.drop (4 - (head.length + octets.length)) := by
      rw [List.drop_append, List.drop_of_length_le (by rw [List.length_append]; omega),
        List.nil_append, List.length_append, hmiddle]
    have hsame := hsound'.eq_of_drop_eq hsound (by simp only [List.length_append, hlength])
      ((hpayload others hlength).trans (hpayload octets rfl).symm)
    exact hne (List.append_cancel_left (List.append_cancel_right hsame))
  · -- The stored checksum is as before, and the payload has changed in a burst.
    have hfront : 4 ≤ head.length := by omega
    have hstored (middle : Octets) : (head ++ middle ++ back).take 4 = head.take 4 := by
      rw [List.append_assoc, List.take_append_of_le_length hfront]
    have hpayload (middle : Octets) :
        (head ++ middle ++ back).drop 4 = head.drop 4 ++ middle ++ back := by
      rw [List.append_assoc, List.drop_append_of_le_length hfront, List.append_assoc]
    unfold IsSound at hsound ⊢
    rw [hstored, hpayload] at hsound ⊢
    rw [hsound]
    exact (checksum_ne_of_burst _ back hlength hshort hne).symm

end Entry

namespace Scan

/-- A scan goes over a framed entry, decoded or not, and then over what follows it. -/
theorem ofOctets_entry_append (now : Instant) {entry : Octets} (h : Entry.IsFramed entry)
    (rest : Octets) :
    ofOctets now (entry ++ rest) =
      cons (Entry.decode now (entry.drop 4) (entry.drop 4).length).toOption entry.length
        (ofOctets now rest) := by
  have hfour : 4 ≤ entry.length := by
    have hlong := h.four_le
    rw [List.length_drop] at hlong
    omega
  have hhead : Octets.ofNatLE 4 (entry.drop 4).length = entry.take 4 := by
    have hback := Octets.ofNatLE_toNatLE (entry.take 4)
    rwa [List.length_take_of_le hfour, h.length_eq] at hback
  have hentry : entry ++ rest =
      Octets.ofNatLE 4 (entry.drop 4).length ++ (entry.drop 4 ++ rest) := by
    rw [hhead, ← List.append_assoc, List.take_append_drop]
  have hne : entry.drop 4 ≠ [] := List.ne_nil_of_length_pos (Nat.lt_of_lt_of_le (by decide) h.four_le)
  have hframe := frame?_append hne h.le_maxLength
    (Nat.le_trans h.four_le (Nat.le_add_right _ rest.length))
  rw [hentry, ofOctets_append now hframe, List.length_drop, Nat.add_sub_cancel' hfour]

section

variable {events : List Event} {entries : List Octets}

theorem ofOctets_encoded_append (now : Instant) {event : Event} {entry : Octets}
    (hevent : event.IsStorable) (hentry : Entry.encode event = .ok entry) (rest : Octets) :
    ofOctets now (entry ++ rest) = cons (event.kept now) entry.length (ofOctets now rest) := by
  obtain ⟨rfl, hfits⟩ := Entry.eq_encoded hevent.2 hentry
  have hsmall : (Entry.content event).length < UInt32.size :=
    Nat.lt_of_le_of_lt hfits (by decide)
  rw [ofOctets_entry_append now (Entry.isFramed_encoded hfits), Entry.drop_encoded,
    Entry.decode_content now hevent.1 hsmall]
  rfl

theorem ofOctets_corrupted_append (now : Instant) {entry damaged : Octets}
    (hframed : Entry.IsFramed entry) (h : Entry.IsCorrupted entry damaged) (rest : Octets) :
    ofOctets now (damaged ++ rest) = cons none damaged.length (ofOctets now rest) := by
  have hdamaged := h.isFramed hframed
  rw [ofOctets_entry_append now hdamaged,
    Entry.decode_of_not_isSound now hdamaged.four_le h.not_isSound]
  rfl

/-- Entries are read to the end of the file. -/
theorem ofOctets_flatten (now : Instant) (hevents : ∀ event ∈ events, event.IsStorable)
    (hentries : List.Forall₂ (fun event entry ↦ Entry.encode event = .ok entry) events entries) :
    ofOctets now entries.flatten = ⟨events.map (Event.kept now), entries.flatten.length⟩ := by
  induction hentries with
  | nil => rfl
  | @cons event entry events entries hentry hrest ih =>
    obtain ⟨hevent, hevents⟩ := List.forall_mem_cons.mp hevents
    rw [List.flatten_cons, ofOctets_encoded_append now hevent hentry, ih hevents, List.length_append]
    rfl

/-- Local damage to one of the entries of a file makes its checksum fail, and costs no other event. The
events are such as a log can hold: their times are valid, and the 32-bit lengths of their entries have
not wrapped (`Event.IsStorable`), as they might from 4 GiB on. -/
theorem ofOctets_set_damaged (now : Instant) (hevents : ∀ event ∈ events, event.IsStorable)
    (hentries : List.Forall₂ (fun event entry ↦ Entry.encode event = .ok entry) events entries)
    {i : Nat} (hi : i < entries.length) {damaged : Octets}
    (hdamage : Entry.IsLocalDamage entries[i] damaged) :
    (∃ offset stored actual, stored ≠ actual ∧ ∀ rest,
      Entry.decode now (damaged.drop 4 ++ rest) (Octets.toNatLE (damaged.take 4)) =
        .error (.checksumMismatch offset stored actual)) ∧
      ofOctets now (entries.set i damaged).flatten =
        ⟨(events.eraseIdx i).map (Event.kept now), (entries.set i damaged).flatten.length⟩ := by
  induction hentries generalizing i with
  | nil => exact absurd hi (Nat.not_lt_zero i)
  | @cons event entry events entries hentry hrest ih =>
    obtain ⟨hevent, hevents⟩ := List.forall_mem_cons.mp hevents
    cases i with
    | zero =>
      obtain ⟨rfl, hfits⟩ := Entry.eq_encoded hevent.2 hentry
      have hframed := Entry.isFramed_encoded hfits
      have hcorrupted : Entry.IsCorrupted (Entry.encoded event) damaged :=
        hdamage.isCorrupted ((Entry.drop_encoded event).symm ▸ Entry.isSound_content event)
      refine ⟨hcorrupted.exists_mismatch now hframed, ?_⟩
      rw [List.set_cons_zero, List.flatten_cons, ofOctets_corrupted_append now hframed hcorrupted,
        ofOctets_flatten now hevents hrest, List.length_append]
      rfl
    | succ i =>
      obtain ⟨hdecode, hscan⟩ := ih hevents (Nat.lt_of_succ_lt_succ hi) hdamage
      refine ⟨hdecode, ?_⟩
      rw [List.set_cons_succ, List.flatten_cons, ofOctets_encoded_append now hevent hentry, hscan,
        List.length_append]
      rfl

/-- The second of three entries with another offset in its payload. -/
def overwritten : Octets :=
  (Entry.encoded (.blank 2)).take 8 ++ [0xff, 0, 0xff, 0] ++ (Entry.encoded (.blank 2)).drop 12

theorem length_encoded_blank (offset : UInt64) : (Entry.encoded (.blank offset)).length = 72 := by
  rw [Entry.encoded, List.length_append, Octets.length_ofNatLE, Event.length_content_blank]

theorem isLocalDamage_overwritten :
    Entry.IsLocalDamage (Entry.encoded (.blank 2)) overwritten := by
  refine ⟨(Entry.encoded (.blank 2)).take 8, ((Entry.encoded (.blank 2)).drop 8).take 4,
    [0xff, 0, 0xff, 0], (Entry.encoded (.blank 2)).drop 12, ?_, rfl, ?_, ?_, Or.inr ?_⟩
  · rw [← List.drop_drop (i := 4) (j := 8), List.append_assoc, List.take_append_drop,
      List.take_append_drop]
  · rw [List.length_take, List.length_drop, length_encoded_blank]
    rfl
  · decide +kernel
  · rw [List.length_take, List.length_take, length_encoded_blank]
    decide

theorem ofOctets_overwritten :
    Entry.IsLocalDamage (Entry.encoded (.blank 2)) overwritten ∧
      (∃ offset stored actual, stored ≠ actual ∧ ∀ rest,
        Entry.decode default (overwritten.drop 4 ++ rest) (Octets.toNatLE (overwritten.take 4)) =
          .error (.checksumMismatch offset stored actual)) ∧
      ofOctets default
          (Entry.encoded (.blank 1) ++ (overwritten ++ Entry.encoded (.blank 3))) =
        ⟨[.blank 1, .blank 3], 216⟩ := by
  have hstorable : ∀ event ∈ [Event.blank 1, .blank 2, .blank 3], event.IsStorable :=
    List.forall_mem_map.mpr fun offset (_ : offset ∈ [1, 2, 3]) ↦ Event.isStorable_blank offset
  have hentries : List.Forall₂ (fun event entry ↦ Entry.encode event = .ok entry)
      [Event.blank 1, .blank 2, .blank 3]
      [Entry.encoded (.blank 1), Entry.encoded (.blank 2), Entry.encoded (.blank 3)] :=
    .cons (Entry.encode_blank 1) (.cons (Entry.encode_blank 2) (.cons (Entry.encode_blank 3) .nil))
  obtain ⟨hdecode, hscan⟩ := ofOctets_set_damaged default hstorable hentries (i := 1) (by decide)
    isLocalDamage_overwritten
  refine ⟨isLocalDamage_overwritten, hdecode, hscan.trans ?_⟩
  have hoverwritten : overwritten.length = 72 := by
    simp only [overwritten, List.length_append, List.length_take, List.length_drop,
      length_encoded_blank]
    rfl
  simp [Event.kept_blank, length_encoded_blank, hoverwritten]

end

end Scan

end LogSequencing
