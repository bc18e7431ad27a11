import LogSequencing.Proofs.Log.Entry

/-!
# Entries of a file

In a file an entry stands before whatever was written after it. An event that is not too long for
the log is encoded (`encode_eq`), its entry begins with the number of octets that follow, and these
are decoded as the event, with its time cut to milliseconds, whatever stands behind them
(`exists_encode_decode`).

Cutting is all that happens to a time (`Event.cutToMilliseconds_eq`, also before 1970), save in leap
seconds: a count of milliseconds does not tell such a second from the next, and after the last
second of the calendar there is none (`Event.kept_eq_of_isValid`).
-/

set_option autoImplicit false
set_option relaxedAutoImplicit false

namespace LogSequencing

namespace Event

theorem cutToMilliseconds_eq {event : Event} (h : event.time.nanoseconds < 1000000000) :
    event.cutToMilliseconds =
      { event with
        time := ⟨event.time.seconds, event.time.nanoseconds / 1000000 * 1000000⟩ } := by
  have htime : Instant.ofMilliseconds event.time.milliseconds =
      ⟨event.time.seconds, event.time.nanoseconds / 1000000 * 1000000⟩ := by
    simp only [Instant.ofMilliseconds, Instant.milliseconds, Instant.mk.injEq]
    omega
  rw [cutToMilliseconds, htime]

/-- A log keeps every time but those in the leap second after the last instant of the calendar. -/
theorem kept_eq_of_isValid (now : Instant) {event : Event} (htime : event.time.IsValid)
    (hlast : event.time.nanoseconds < 1000000000 ∨ event.time.seconds < Instant.lastSecond) :
    event.kept now = event.cutToMilliseconds := by
  apply kept_eq_cutToMilliseconds
  obtain ⟨hrange, hleap⟩ := htime
  simp only [Instant.isRepresentable, Bool.and_eq_true, decide_eq_true_eq] at hrange ⊢
  simp only [Instant.ofMilliseconds, Instant.milliseconds]
  omega

end Event

namespace Entry

theorem encode_blank (offset : UInt64) :
    encode (Event.blank offset) = .ok (encoded (Event.blank offset)) := by
  apply encode_eq
  rw [Event.length_content_blank]
  decide

/-- Encoding an event that is not too long gives its length and an entry that is read back, whatever
follows it. -/
theorem exists_encode_decode {event : Event} (htime : event.time.IsValid)
    (hfits : (content event).length ≤ maxLength) :
    ∃ entry, encode event = .ok entry ∧
      Octets.toNatLE (entry.take 4) = (entry.drop 4).length ∧
      (∀ (now : Instant) (rest : Octets),
        decode now (entry.drop 4 ++ rest) (Octets.toNatLE (entry.take 4)) =
          .ok (event.kept now)) ∧
      (event.time.nanoseconds < 1000000000 ∨ event.time.seconds < Instant.lastSecond →
        ∀ now, event.kept now = event.cutToMilliseconds) ∧
      (event.time.nanoseconds < 1000000000 →
        event.cutToMilliseconds =
          { event with
            time := ⟨event.time.seconds, event.time.nanoseconds / 1000000 * 1000000⟩ }) := by
  have hsmall : (content event).length < UInt32.size := Nat.lt_of_le_of_lt hfits (by decide)
  have hlength : Octets.toNatLE (Octets.ofNatLE 4 (content event).length) =
      (content event).length := Octets.toNatLE_ofNatLE_of_lt hsmall
  refine ⟨encoded event, encode_eq hfits, ?_, ?_,
    fun hlast now ↦ Event.kept_eq_of_isValid now htime hlast, Event.cutToMilliseconds_eq⟩
  · rw [take_encoded, drop_encoded, hlength]
  · intro now rest
    rw [take_encoded, drop_encoded, hlength,
      decode_append_of_le now rest (four_le_length_content event)]
    exact decode_content now htime hsmall

/-- An event of the last offset there is, a nanosecond before 1970. -/
def beforeEpoch : Event :=
  ⟨⟨18446744073709551615⟩, ⟨-1, 999999999⟩, ⟨0⟩, ⟨18446744073709551615⟩,
    [⟨⟨18446744073709551615⟩, .oDoc, true⟩, ⟨⟨0⟩, .cDoc, false⟩], [⟨⟨1⟩, .wDoc⟩, ⟨⟨10⟩, .oRecord⟩]⟩

theorem exists_encode_decode_beforeEpoch :
    beforeEpoch.time.IsValid ∧ (content beforeEpoch).length ≤ maxLength ∧
      ∃ entry, encode beforeEpoch = .ok entry ∧
        Octets.toNatLE (entry.take 4) = (entry.drop 4).length ∧
        ∀ (now : Instant) (rest : Octets),
          decode now (entry.drop 4 ++ rest) (Octets.toNatLE (entry.take 4)) =
            .ok { beforeEpoch with time := ⟨-1, 999000000⟩ } := by
  have htime : beforeEpoch.time.IsValid := by decide
  have hbody : (body beforeEpoch).length ≤ 1000 := by decide +kernel
  have hfits : (content beforeEpoch).length ≤ maxLength := by
    rw [length_content]
    exact Nat.le_trans (Nat.add_le_add_left hbody 40) (by decide)
  have hleap : beforeEpoch.time.nanoseconds < 1000000000 := by decide
  obtain ⟨entry, hentry, hlength, hdecode, hkept, hcut⟩ := exists_encode_decode htime hfits
  refine ⟨htime, hfits, entry, hentry, hlength, fun now rest ↦ ?_⟩
  rw [hdecode, hkept (Or.inl hleap), hcut hleap]
  rfl

end Entry

end LogSequencing
