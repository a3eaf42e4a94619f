import ArchState.Proofs.Reservation.Run

/-! # Exclusive conditional stores

Two conditional stores to overlapping memory cannot both succeed on reservations made before
the first of them, with one exception: a conditional store of a double word does not count
for reservations of the words in it, so it leaves those in place.
-/
namespace ArchState

def Overlap (a : UInt32) (w : ReservationWidth) (b : UInt32) (v : ReservationWidth) : Prop :=
  a.toNat < b.toNat + v.bytes ∧ b.toNat < a.toNat + w.bytes

instance (a : UInt32) (w : ReservationWidth) (b : UInt32) (v : ReservationWidth) :
    Decidable (Overlap a w b v) := inferInstanceAs (Decidable (_ ∧ _))

namespace Reservations
variable {r : Reservations} {h₁ h₂ : Nat} {a b : UInt32} {w v : ReservationWidth}
  {e : Reservation}

/-- An entry that counts for a conditional store counts for every one to overlapping memory,
unless it is for a word and the other one stores a double word. -/
theorem covers_of_overlap (ha : a.toNat % w.bytes = 0) (hb : b.toNat % v.bytes = 0)
    (ho : Overlap a w b v) (he : e.covers b v = true) :
    e.covers a w = true ∨ w = .double ∧ v = .word ∧ e = ⟨b, .word⟩ := by
  obtain ⟨hab, hba⟩ := ho
  rw [Reservation.covers_iff] at he ⊢
  -- both accesses lie in the double word of the entry
  have hdouble (heq : a.toNat / 8 = b.toNat / 8) : doubleBase b = doubleBase a := by
    rw [← UInt32.toNat_inj, doubleBase_toNat, doubleBase_toNat, heq]
  cases v with
  | double =>
    have hself : doubleBase b = b := by
      rw [← UInt32.toNat_inj, doubleBase_toNat]
      simp only [ReservationWidth.bytes] at hb
      omega
    rw [hself, or_self] at he
    subst he
    left
    right
    rw [← hself, hdouble]
    cases w <;> simp only [ReservationWidth.bytes] at * <;> omega
  | word =>
    rcases he with rfl | rfl
    · cases w with
      | word =>
        left
        left
        have heq : b = a := by
          rw [← UInt32.toNat_inj]
          simp only [ReservationWidth.bytes] at *
          omega
        rw [heq]
      | double => exact .inr ⟨rfl, rfl, rfl⟩
    · left
      right
      rw [hdouble]
      cases w <;> simp only [ReservationWidth.bytes] at * <;> omega

/-- Exclusivity of conditional stores. When two of them to overlapping memory succeed, the
second hart has reserved after the first one, or the first one stored a double word and the
second hart held a reservation of exactly its word. -/
theorem unreserve_exclusive (r : Reservations) (between : List ReservationRequest)
    (h₁ h₂ : Nat) (a b : UInt32) (w v : ReservationWidth)
    (hfirst : (r.unreserve h₁ a w).answer = .ok true)
    (hsecond : (((r.unreserve h₁ a w).state.run between).unreserve h₂ b v).answer = .ok true)
    (hoverlap : Overlap a w b v) :
    (∃ before later, ∃ e : Reservation,
      between = before ++ .reserve h₂ e.address e.width :: later ∧
      (((r.unreserve h₁ a w).state.run before).reserve h₂ e.address e.width).answer = .ok () ∧
      e.covers b v = true) ∨
    w = .double ∧ v = .word ∧ r.Holds h₂ ⟨b, .word⟩ := by
  obtain ⟨ha, -⟩ := unreserve_eq_true_iff.mp hfirst
  obtain ⟨hb, e, hholds, hcovers⟩ := unreserve_eq_true_iff.mp hsecond
  rcases holds_run hholds with hstill | ⟨before, later, hsplit, hok⟩
  · obtain ⟨hbefore, hnot⟩ := (holds_unreserve hfirst).mp hstill
    rcases covers_of_overlap ha hb hoverlap hcovers with hc | ⟨hw, hv, he⟩
    · rw [hnot] at hc
      exact nomatch hc
    · exact .inr ⟨hw, hv, he ▸ hbefore⟩
  · exact .inl ⟨before, later, e, hsplit, hok, hcovers⟩

theorem unreserve_exclusive_after_reserving :
    ∃ before later, ∃ e : Reservation,
      [ReservationRequest.reserve 1 0x1000 .double, .unreserve 0 0x1004 .word] =
        before ++ .reserve 1 e.address e.width :: later ∧ e.covers 0x1000 .double = true := by
  let r := (initial 2).run [.reserve 0 0x1004 .word, .reserve 1 0x1000 .double]
  have hfirst : (r.unreserve 0 0x1004 .word).answer = .ok true := by rfl
  have hsecond : (((r.unreserve 0 0x1004 .word).state.run
      [.reserve 1 0x1000 .double, .unreserve 0 0x1004 .word]).unreserve 1 0x1000 .double).answer =
      .ok true := by rfl
  rcases unreserve_exclusive r _ 0 1 0x1004 0x1000 .word .double hfirst hsecond (by decide) with
    ⟨before, later, e, hsplit, -, hcovers⟩ | ⟨hw, -⟩
  · exact ⟨before, later, e, hsplit, hcovers⟩
  · exact nomatch hw

/-- A reservation of a word outlives a conditional store of the double word around it, so a
second conditional store need not have been reserved for after the first one. -/
theorem word_reservation_outlives_double_store :
    ¬ ∀ (harts : Nat) (earlier between : List ReservationRequest) (h₁ h₂ : Nat) (a b : UInt32)
      (w v : ReservationWidth),
      (((initial harts).run earlier).unreserve h₁ a w).answer = .ok true →
      (((((initial harts).run earlier).unreserve h₁ a w).state.run between).unreserve
        h₂ b v).answer = .ok true →
      Overlap a w b v →
      ∃ before later, ∃ e : Reservation,
        between = before ++ .reserve h₂ e.address e.width :: later ∧ e.covers b v = true := by
  intro hclaim
  obtain ⟨before, later, e, hsplit, -⟩ :=
    hclaim 2 [.reserve 0 0x1000 .double, .reserve 1 0x1000 .word] [] 0 1 0x1000 0x1000
      .double .word rfl rfl (by decide)
  simp at hsplit

end Reservations
end ArchState
