import WorkerGuard.Worker.Record

/-!
# WorkerGuard.Proofs.Time.Age

The age of a worker, and the instant before which workers of that age were created.

* `Instant.Leap`: the instants within a leap second.
* `Instant.lt_before_iff`: outside of leap seconds, what lies before the instant a duration ago lies
  back for longer than the duration. This holds of every duration, also of those that reach back
  before the earliest instant.
* `Instant.lt_of_millis_lt`, `Instant.millis_add_le`: what is known of instants by their
  milliseconds, and what their milliseconds know of them.
* `Instant.lt_since_of_millis_lt_before`, `Instant.millis_lt_before_of_since`: ages told by
  milliseconds are too small by less than one.
* `Worker.createdAt_lt_before_iff`: the same as `lt_before_iff`, of the age of a worker.
-/

namespace WorkerGuard

namespace Instant

variable {t u : Instant} {d : Duration}

def Leap (t : Instant) : Prop := 1_000_000_000 ≤ t.nanos

instance (t : Instant) : Decidable t.Leap := inferInstanceAs (Decidable (_ ≤ _))

/-- Nanoseconds from 1970, as if there were no leap seconds. -/
def reckoned (t : Instant) : Int := t.seconds * 1_000_000_000 + t.nanos

theorem nanosSince_eq (ht : ¬t.Leap) (hu : ¬u.Leap) :
    t.nanosSince u = t.reckoned - u.reckoned := by
  unfold Leap at ht hu
  simp only [nanosSince, reckoned, if_neg ht, if_neg hu, ite_self]
  omega

/-- A span that does not begin in a leap second is no longer than the clock says. -/
theorem nanosSince_le (hu : ¬u.Leap) : t.nanosSince u ≤ t.reckoned - u.reckoned := by
  have hstep : (if u.seconds % 86400 < t.seconds % 86400 then
      (if u.nanos ≥ 1_000_000_000 then 1 else 0)
    else if t.seconds % 86400 < u.seconds % 86400 then
      (if t.nanos ≥ 1_000_000_000 then -1 else 0)
    else 0 : Int) ≤ 0 := by
    rw [if_neg (show ¬u.nanos ≥ 1_000_000_000 from hu)]
    repeat' split
    all_goals decide
  show (t.seconds - u.seconds + _) * 1_000_000_000 + ((t.nanos : Int) - u.nanos) ≤ _
  simp only [reckoned]
  omega

/-- No two instants are further apart than durations reach. -/
theorem nanos_since (t u : Instant) : (t.since u).nanos = (t.nanosSince u).toNat := by
  have hfits : (t.nanosSince u).toNat < Duration.limit := by
    have := t.le_latest
    have := u.earliest_le
    have := t.nanos_lt
    have : Duration.limit = 18446744073709551616 * 1_000_000_000 := rfl
    simp only [nanosSince]
    split
    · split <;> omega
    · split
      · split <;> omega
      · omega
  simp [since, Duration.ofNanos?, hfits]

theorem lt_iff_reckoned (ht : ¬t.Leap) (hu : ¬u.Leap) : u < t ↔ u.reckoned < t.reckoned := by
  unfold Leap at ht hu
  rw [lt_iff]
  simp only [reckoned]
  omega

theorem not_lt_earliest (t : Instant) : ¬t < earliest := by
  have := t.earliest_le
  rw [lt_iff]
  simp only [earliest]
  omega

/-- Either the instant a duration ago is found by counting back, or no instant lies so far back. -/
theorem before_cases (ht : ¬t.Leap) (d : Duration) :
    (¬(t.before d).Leap ∧ (t.before d).reckoned = t.reckoned - d.nanos) ∨
      t.before d = earliest ∧ ∀ u : Instant, t.reckoned - d.nanos < u.reckoned := by
  have hlatest := t.le_latest
  have hlow {n : Int} (hn : n < -8334601228800 * 1_000_000_000) (u : Instant) : n < u.reckoned := by
    have := u.earliest_le
    simp only [reckoned]
    omega
  unfold Leap at ht ⊢
  simp only [before, reckoned]
  by_cases hlong : d.nanos > longestSpan
  · refine .inr ⟨if_pos hlong, hlow ?_⟩
    simp only [longestSpan] at hlong
    omega
  · rw [if_neg hlong, if_neg fun h => ht h.2]
    simp only [ofNanos?, ofParts?]
    split
    · left
      simp only [Option.getD_some]
      omega
    · rename_i hrange
      refine .inr ⟨rfl, hlow ?_⟩
      omega

theorem lt_before_iff (ht : ¬t.Leap) (hu : ¬u.Leap) (d : Duration) :
    u < t.before d ↔ d < t.since u := by
  have hage : d < t.since u ↔ u.reckoned < t.reckoned - d.nanos := by
    show d.nanos < (t.since u).nanos ↔ _
    rw [nanos_since, nanosSince_eq ht hu]
    omega
  rw [hage]
  obtain ⟨hleap, hcut⟩ | ⟨hcut, hlow⟩ := before_cases ht d
  · rw [lt_iff_reckoned hleap hu, hcut]
  · have := hlow u
    rw [hcut]
    constructor
    · intro h
      exact absurd h (not_lt_earliest u)
    · intro h
      omega

/-- Milliseconds are exact to the second, so that of two times in one second only nanoseconds can
be lost. -/
theorem lt_of_millis_lt (ht : ¬t.Leap) (h : u.millis < t.millis) : u < t := by
  unfold Leap at ht
  rw [lt_iff]
  simp only [millis] at h
  omega

theorem millis_add_le (hu : ¬u.Leap) {n : Nat} (h : n * 1_000_000 ≤ t.nanosSince u) :
    u.millis + n ≤ t.millis := by
  have hspan := nanosSince_le (t := t) hu
  simp only [reckoned] at hspan
  unfold millis
  omega

theorem millis_of_since {secs : UInt64} (hu : ¬u.Leap) (hpos : 0 < secs.toNat)
    (hs : .ofSeconds secs ≤ t.since u) : u.millis + secs.toNat * 1000 ≤ t.millis := by
  have hnanos := Duration.le_def.1 hs
  rw [Duration.nanos_ofSeconds, nanos_since] at hnanos
  have hms := millis_add_le (t := t) hu (n := secs.toNat * 1000) (by omega)
  omega

/-- Who counts as too old by milliseconds is too old. -/
theorem lt_since_of_millis_lt_before (ht : ¬t.Leap) (hu : ¬u.Leap)
    (h : u.millis < (t.before d).millis) : d < t.since u := by
  refine (lt_before_iff ht hu d).1 (lt_of_millis_lt ?_ h)
  obtain ⟨hleap, -⟩ | ⟨hfirst, -⟩ := before_cases ht d
  · exact hleap
  · rw [hfirst]
    decide

/-- Who is too old by a millisecond counts as too old by milliseconds. -/
theorem millis_lt_before_of_since (ht : ¬t.Leap) (hu : ¬u.Leap)
    (h : d.nanos + 1_000_000 ≤ (t.since u).nanos) : u.millis < (t.before d).millis := by
  rw [nanos_since, nanosSince_eq ht hu] at h
  obtain ⟨hleap, hcut⟩ | ⟨-, hlow⟩ := before_cases ht d
  · have hms := millis_add_le (t := t.before d) hu (n := 1) (by
      rw [nanosSince_eq hleap hu, hcut]
      omega)
    omega
  · have := hlow u
    omega

end Instant

theorem Worker.createdAt_lt_before_iff {w : Worker} {now : Instant} (hnow : ¬now.Leap)
    (hw : ¬w.createdAt.Leap) (maxAge : Duration) :
    w.createdAt < now.before maxAge ↔ maxAge < w.age now :=
  Instant.lt_before_iff hnow hw maxAge

end WorkerGuard
