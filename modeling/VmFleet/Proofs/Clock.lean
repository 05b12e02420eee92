/-
The clock while a program runs: it does not go back, whatever the tool does, and
a length of time that is added to it leaves no leap second.
-/
import VmFleet.Proofs.Events

namespace VmFleet

namespace Instant

variable {t u v : Instant} {d : Duration}

theorem le_refl (t : Instant) : t ≤ t :=
  .inr ⟨rfl, Nat.le_refl _⟩

theorem le_of_eq (h : t = u) : t ≤ u :=
  h ▸ t.le_refl

theorem le_trans (h : t ≤ u) (h' : u ≤ v) : t ≤ v := by
  rw [le_def] at *
  omega

theorem lt_trichotomy (t u : Instant) : t < u ∨ t = u ∨ u < t := by
  obtain ⟨second, nano⟩ := t
  obtain ⟨second', nano'⟩ := u
  simp only [lt_def, mk.injEq]
  omega

theorem second_le (h : t ≤ u) : t.second ≤ u.second := by
  rw [le_def] at h
  omega

theorem le_after (t : Instant) (d : Duration) : t ≤ t.after d := by
  rw [le_def, after, ofNanos, toNanos]
  dsimp only
  omega

theorem ofNanos_nano_lt (n : Int) : (ofNanos n).nano < 1000000000 := by
  rw [ofNanos]
  dsimp only
  omega

theorem after_nano_lt (t : Instant) (d : Duration) : (t.after d).nano < 1000000000 :=
  ofNanos_nano_lt _

theorem before?_nano_lt {u : Instant} {d : Duration} (h : t.before? d = some u) :
    u.nano < 1000000000 := by
  obtain ⟨-, same⟩ := Option.ite_none_right_eq_some.mp h
  cases same
  exact ofNanos_nano_lt _

theorem after_zero (plain : t.nano < 1000000000) : t.after .zero = t := by
  obtain ⟨second, nano⟩ := t
  simp only [after, ofNanos, toNanos, Duration.zero, mk.injEq] at *
  omega

theorem toNanos_after (t : Instant) (d : Duration) :
    (t.after d).toNanos = t.toNanos + d.nanos := by
  simp only [after, ofNanos, toNanos]
  omega

theorem after_after (t : Instant) (d e : Duration) : (t.after d).after e = t.after (d + e) := by
  rw [after, toNanos_after, after, Duration.nanos_add, Int.natCast_add, Int.add_assoc]

theorem since_after (t : Instant) (d : Duration) : (t.after d).since t = d := by
  have gap : t.toNanos + d.nanos - t.toNanos = d.nanos := by omega
  rw [since, toNanos_after, gap, Int.toNat_natCast]

theorem toNanos_le_of_after (h : u = t.after d) : t.toNanos ≤ u.toNanos := by
  rw [h, toNanos_after]
  omega

theorem lt_iff_toNanos (ht : t.nano < 1000000000) (hu : u.nano < 1000000000) :
    t < u ↔ t.toNanos < u.toNanos := by
  simp only [lt_def, toNanos]
  omega

theorem le_iff_toNanos (ht : t.nano < 1000000000) (hu : u.nano < 1000000000) :
    t ≤ u ↔ t.toNanos ≤ u.toNanos := by
  simp only [le_def, toNanos]
  omega

theorem after_le_after {e : Duration} : t.after d ≤ t.after e ↔ d ≤ e := by
  rw [le_iff_toNanos (after_nano_lt _ _) (after_nano_lt _ _), toNanos_after, toNanos_after,
    Duration.le_def]
  omega

end Instant

namespace World

variable {w : World} {p : Provisioner}

theorem now_le_reach (w : World) (t : Instant) : w.now ≤ (w.reach t).now := by
  simp only [reach]
  split
  · assumption
  · exact w.now.le_refl

theorem now_advance (w : World) (d : Duration) : (w.advance d).now = w.now.after d := by
  simp only [advance, reach, if_pos (w.now.le_after d)]

/-- Where nothing is to come, only the clock moves. -/
theorem advance_of_quiet (quiet : w.coming = []) (d : Duration) :
    w.advance d = { w with now := w.now.after d } := by
  rw [advance, reach_of_coming_eq_nil quiet, if_pos (w.now.le_after d)]

theorem now_le_perform {β : Type} (tool : Tool) (op : Operation β) (w : World) :
    w.now ≤ (w.perform tool op).2.now := by
  cases op
  case now => exact now_le_reach _ _
  case call c abortAt => exact now_le_reach _ _
  case findVm | vmsIn => exact w.now.le_refl
  case removeVm | release => exact w.now.le_refl
  all_goals exact Instant.le_of_eq (w.commit_frame _).1.symm

end World

namespace Program

variable {α β : Type} {p : Program α} {f : α → Program β} {tool : Tool} {w w' : World}

theorem run_bind {a : α} (h : p.run tool w = (.finished a, w')) :
    (p >>= f).run tool w = (f a).run tool w' := by
  induction p generalizing w with
  | pure b =>
    obtain ⟨same, rfl⟩ := Prod.mk.inj h
    cases same
    rfl
  | ask op next ih => exact ih _ h
  | crash why => cases (Prod.mk.inj h).1

theorem run_bind_of_crashed {why : String} (h : p.run tool w = (.crashed why, w')) :
    (p >>= f).run tool w = (.crashed why, w') := by
  induction p generalizing w with
  | pure a => cases h
  | ask op next ih => exact ih _ h
  | crash why =>
    obtain ⟨same, rfl⟩ := Prod.mk.inj h
    cases same
    rfl

/-- Two programs in a row break down in the first of them or after it. -/
theorem run_bind_crashed {why : String} (h : (p >>= f).run tool w = (.crashed why, w')) :
    p.run tool w = (.crashed why, w') ∨
      ∃ a w₁, p.run tool w = (.finished a, w₁) ∧ (f a).run tool w₁ = (.crashed why, w') := by
  induction p generalizing w with
  | pure a => exact .inr ⟨a, w, rfl, h⟩
  | ask op next ih => exact ih _ h
  | crash why' =>
    obtain ⟨same, rfl⟩ := Prod.mk.inj h
    cases same
    exact .inl rfl

theorem run_map_world (g : α → β) :
    ((p >>= fun a => Pure.pure (g a)).run tool w).2 = (p.run tool w).2 := by
  induction p generalizing w with
  | pure a => rfl
  | ask op next ih => exact ih _
  | crash why => rfl

theorem now_le_run (p : Program α) (tool : Tool) (w : World) : w.now ≤ (p.run tool w).2.now := by
  induction p generalizing w with
  | pure a => exact w.now.le_refl
  | ask op next ih => exact Instant.le_trans (World.now_le_perform tool op w) (ih _ _)
  | crash why => exact w.now.le_refl

theorem run_coming {p : Provisioner} (program : Program α) (quiet : w.coming = []) :
    (program.run p.tool w).2.coming = [] := by
  induction program generalizing w with
  | pure a => exact quiet
  | ask op next ih => exact ih _ (World.perform_coming p op quiet)
  | crash why => exact quiet

end Program

end VmFleet
