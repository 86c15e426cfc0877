import OutboxPublisher.Webhook.Authenticity

/-!
# The replay window over time

The clock and the tolerance are both cut to whole seconds before they are compared. This module
relates that comparison to exact time (`InWindow.dist_lt`), to the order of clock readings
(`InWindow.convex`, `not_inWindow_of_expired`) and to the order of tolerances
(`InWindow.mono_tolerance`), and from these says what happens to one header presented again and
again (`WebhookVerifier.verify_replays`).
-/

namespace OutboxPublisher

/-- The elements of a sorted list with a convex property stand together. -/
theorem exists_block {α : Type*} {R : α → α → Prop} {p : α → Prop}
    (hconvex : ∀ a b c, R a b → R b c → p a → p c → p b) :
    ∀ {xs : List α}, xs.Pairwise R → ∃ before block after, xs = before ++ block ++ after ∧
      (∀ x ∈ block, p x) ∧ ∀ x ∈ before ++ after, ¬ p x
  | [], _ => ⟨[], [], [], by simp⟩
  | x :: xs, hsorted => by
    obtain ⟨hx, hxs⟩ := List.pairwise_cons.1 hsorted
    obtain ⟨before, block, after, rfl, hblock, hrest⟩ := exists_block hconvex hxs
    by_cases hp : p x
    · cases block with
      | nil =>
        refine ⟨[], [x], before ++ after, by simp, ?_, by simpa using hrest⟩
        rintro y hy
        obtain rfl := List.mem_singleton.1 hy
        exact hp
      | cons y block =>
        cases before with
        | nil =>
          refine ⟨[], x :: y :: block, after, rfl, ?_, hrest⟩
          rintro z hz
          rcases List.mem_cons.1 hz with rfl | hz
          · exact hp
          · exact hblock z hz
        | cons b before =>
          have hby : R b y := by
            rw [List.append_assoc, List.cons_append] at hxs
            exact (List.pairwise_cons.1 hxs).1 y (by simp)
          have hpb : p b := hconvex x b y (hx b (by simp)) hby hp (hblock y (by simp))
          exact absurd hpb (hrest b (by simp))
    · refine ⟨x :: before, block, after, rfl, hblock, ?_⟩
      rintro z hz
      rcases List.mem_cons.1 hz with rfl | hz
      · exact hp
      · exact hrest z hz

/-! ## The window and exact time -/

section
variable {tolerance : Duration} {now : SystemTime} {ts : UInt64}

/-- A reading in the window is less than the tolerance and a second away from the timestamp. -/
theorem InWindow.dist_lt (h : InWindow tolerance now ts) :
    |now.nanos - (ts.toNat : ℤ) * 10 ^ 9| < (tolerance.asNanos : ℤ) + 10 ^ 9 := by
  obtain ⟨hlo, hhi⟩ := abs_le.1 h.2
  rw [SystemTime.secs] at hlo hhi
  rw [Duration.asNanos, abs_lt]
  push_cast
  omega

/-- Readings between two readings of the window are in the window. -/
theorem InWindow.convex {t₁ t₂ t₃ : SystemTime} (h₁₂ : t₁.nanos ≤ t₂.nanos)
    (h₂₃ : t₂.nanos ≤ t₃.nanos) (h₁ : InWindow tolerance t₁ ts) (h₃ : InWindow tolerance t₃ ts) :
    InWindow tolerance t₂ ts := by
  obtain ⟨hepoch, hd₁⟩ := h₁
  obtain ⟨-, hd₃⟩ := h₃
  rw [abs_le, SystemTime.secs] at hd₁ hd₃
  refine ⟨hepoch.trans h₁₂, ?_⟩
  rw [abs_le, SystemTime.secs]
  omega

/-- After a reading whose whole seconds are past the window no reading is in it. -/
theorem not_inWindow_of_expired {later : SystemTime}
    (h : (ts.toNat : ℤ) + tolerance.secs.toNat < now.secs) (hle : now.nanos ≤ later.nanos) :
    ¬ InWindow tolerance later ts := by
  rintro ⟨-, hd⟩
  rw [SystemTime.secs] at h
  rw [abs_le, SystemTime.secs] at hd
  omega

/-- A longer tolerance has no fewer whole seconds. -/
theorem Duration.secs_le_of_asNanos_le {d d' : Duration} (h : d.asNanos ≤ d'.asNanos) :
    d.secs.toNat ≤ d'.secs.toNat := by
  have h₁ := d.nanos_lt
  have h₂ := d'.nanos_lt
  rw [asNanos, asNanos] at h
  omega

/-- A longer tolerance has a wider window. -/
theorem InWindow.mono_tolerance {tolerance' : Duration}
    (hle : tolerance.asNanos ≤ tolerance'.asNanos) (h : InWindow tolerance now ts) :
    InWindow tolerance' now ts :=
  ⟨h.1, h.2.trans (Int.ofNat_le.2 (Duration.secs_le_of_asNanos_le hle))⟩

end

/-! ## Replays -/

namespace WebhookVerifier

/-- **The replay window over time.** One header and body, presented at a non-decreasing sequence of
exact clock readings: the accepting readings stand together, all in the window, and are all of the
window's or none; each is less than the tolerance and a second away from the timestamp; once the
whole seconds are past the window every later call reports it; and a longer tolerance accepts
whatever a shorter one does. Reference: `WebhookVerifier::verify` (`webhook/mod.rs:125`). -/
theorem verify_replays (hmacSha256 : Bytes → Bytes → Vector UInt8 32) (secret body : Bytes)
    (tolerance : Duration) (header : List Char) (ts : UInt64) (digest : Bytes)
    (hw : WellFormed header ts digest) (readings : List SystemTime)
    (hsorted : readings.Pairwise fun r r' => r.nanos ≤ r'.nanos)
    (hepoch : ∀ r ∈ readings, 0 ≤ r.nanos) :
    (∃ before block after, readings = before ++ block ++ after ∧
      (∀ r ∈ block, InWindow tolerance r ts ∧
        verify hmacSha256 ⟨secret, tolerance⟩ r header body = .ok ()) ∧
      ∀ r ∈ before ++ after, verify hmacSha256 ⟨secret, tolerance⟩ r header body ≠ .ok ()) ∧
    ((∀ r ∈ readings, InWindow tolerance r ts →
        verify hmacSha256 ⟨secret, tolerance⟩ r header body = .ok ()) ∨
      ∀ r ∈ readings, verify hmacSha256 ⟨secret, tolerance⟩ r header body ≠ .ok ()) ∧
    (∀ r ∈ readings, verify hmacSha256 ⟨secret, tolerance⟩ r header body = .ok () →
      |r.nanos - (ts.toNat : ℤ) * 10 ^ 9| < (tolerance.asNanos : ℤ) + 10 ^ 9) ∧
    (∀ before r after, readings = before ++ r :: after →
      (ts.toNat : ℤ) + tolerance.secs.toNat < r.secs → ∀ r' ∈ r :: after,
        verify hmacSha256 ⟨secret, tolerance⟩ r' header body =
          .error .timestampOutOfTolerance) ∧
    (∀ tolerance' : Duration, tolerance.asNanos ≤ tolerance'.asNanos → ∀ r ∈ readings,
      verify hmacSha256 ⟨secret, tolerance⟩ r header body = .ok () →
        verify hmacSha256 ⟨secret, tolerance'⟩ r header body = .ok ()) := by
  have hiff : ∀ (tol : Duration) (r : SystemTime),
      verify hmacSha256 ⟨secret, tol⟩ r header body = .ok () ↔ InWindow tol r ts ∧
        digest = (hmacSha256 secret (Signing.message ts body)).toList :=
    fun _ _ => verify_eq_ok_iff_of_wellFormed hw
  refine ⟨?_, ?_, ?_, ?_, ?_⟩
  · obtain ⟨before, block, after, hsplit, hblock, hrest⟩ := exists_block
      (fun a b c hab hbc ha hc => (hiff tolerance b).2
        ⟨((hiff tolerance a).1 ha).1.convex hab hbc ((hiff tolerance c).1 hc).1,
          ((hiff tolerance a).1 ha).2⟩) hsorted
    exact ⟨before, block, after, hsplit,
      fun r hr => ⟨((hiff tolerance r).1 (hblock r hr)).1, hblock r hr⟩, hrest⟩
  · by_cases hdig : digest = (hmacSha256 secret (Signing.message ts body)).toList
    · exact .inl fun r _ hin => (hiff tolerance r).2 ⟨hin, hdig⟩
    · exact .inr fun r _ hok => hdig ((hiff tolerance r).1 hok).2
  · exact fun r _ hok => ((hiff tolerance r).1 hok).1.dist_lt
  · rintro before r after rfl hexp r' hr'
    have hle : r.nanos ≤ r'.nanos := by
      rcases List.mem_cons.1 hr' with rfl | hr'
      · exact le_rfl
      · exact (List.pairwise_cons.1 (List.pairwise_append.1 hsorted).2.1).1 r' hr'
    exact (verify_eq_stale_iff_of_wellFormed hw).2 (not_inWindow_of_expired hexp hle)
  · intro tolerance' hle r _ hok
    obtain ⟨hin, hdig⟩ := (hiff tolerance r).1 hok
    exact (hiff tolerance' r).2 ⟨hin.mono_tolerance hle, hdig⟩

/-- The header of an empty body signed at the epoch, presented at the epoch, two and a half seconds
and four seconds later under a tolerance of three seconds: the last call reports an expired
timestamp, and the second is accepted under any longer tolerance. -/
theorem verify_replays_epoch :
    verify (fun _ _ => epochTag) ⟨[], Duration.fromSecs 3⟩ ⟨4000000000, by decide⟩
      (Signing.sign (fun _ _ => epochTag) [] 0 []) [] = .error .timestampOutOfTolerance ∧
    verify (fun _ _ => epochTag) ⟨[], ⟨3, 1, by decide⟩⟩ ⟨2500000000, by decide⟩
      (Signing.sign (fun _ _ => epochTag) [] 0 []) [] = .ok () := by
  have h := verify_replays (fun _ _ => epochTag) [] [] (Duration.fromSecs 3) _ 0 _
    (Signing.wellFormed_sign (fun _ _ => epochTag) [] 0 [])
    [⟨0, by decide⟩, ⟨2500000000, by decide⟩, ⟨4000000000, by decide⟩] (by decide) (by decide)
  exact ⟨h.2.2.2.1 [_, _] _ [] rfl (by decide) _ (by simp),
    h.2.2.2.2 ⟨3, 1, by decide⟩ (by decide) _ (by simp) (by decide)⟩

/-! ## Fresh requests -/

/-- **When a fresh request is refused.** `verify` reports a timestamp out of tolerance only beyond
the exact tolerance, except for one second of future timestamps: the one right after the whole
seconds of the tolerance, when the parts of a second of the clock and of the tolerance make up
another second. Both are cut off before the comparison. Reference: `WebhookVerifier::verify`
(`webhook/mod.rs:125`). -/
theorem verify_refuses_fresh_iff (hmacSha256 : Bytes → Bytes → Vector UInt8 32)
    (secret body : Bytes) (tolerance : Duration) (now : SystemTime) (hnow : 0 ≤ now.nanos)
    (header : List Char) (ts : UInt64) (digest : Bytes) (hw : WellFormed header ts digest) :
    (verify hmacSha256 ⟨secret, tolerance⟩ now header body = .error .timestampOutOfTolerance →
      (tolerance.asNanos : ℤ) < |now.nanos - (ts.toNat : ℤ) * 10 ^ 9|) ↔
    ¬ ((ts.toNat : ℤ) = now.secs + tolerance.secs.toNat + 1 ∧
      10 ^ 9 ≤ now.nanos % 10 ^ 9 + tolerance.nanos) := by
  have hstale : verify hmacSha256 ⟨secret, tolerance⟩ now header body =
      .error .timestampOutOfTolerance ↔ ¬ InWindow tolerance now ts :=
    verify_eq_stale_iff_of_wellFormed hw
  have hin : ¬ InWindow tolerance now ts ↔ (tolerance.secs.toNat : ℤ) < |now.secs - ts.toNat| := by
    rw [not_inWindow_iff]
    omega
  have hfrac := tolerance.nanos_lt
  rw [hstale, hin, lt_abs, lt_abs, SystemTime.secs, Duration.asNanos]
  push_cast
  omega

/-- A clock nine tenths of a second after the epoch, a tolerance of half a second, and a timestamp
of one second: a tenth of a second ahead, and refused. -/
theorem verify_refuses_fresh :
    ¬ ∀ (secret body : Bytes) (tolerance : Duration) (now : SystemTime), 0 ≤ now.nanos →
      ∀ (header : List Char) (ts : UInt64) (digest : Bytes), WellFormed header ts digest →
        verify (fun _ _ => epochTag) ⟨secret, tolerance⟩ now header body =
          .error .timestampOutOfTolerance →
        (tolerance.asNanos : ℤ) < |now.nanos - (ts.toNat : ℤ) * 10 ^ 9| := by
  intro hclaim
  have hw : WellFormed (Signing.headerText 1 ['0', '0']) 1 [0] := ⟨by decide, by decide⟩
  have hlt := hclaim [] [] ⟨0, 500000000, by decide⟩ ⟨900000000, by decide⟩ (by decide) _ 1 [0] hw
    (by decide)
  exact absurd hlt (by decide)

/-- The same at the boundary, on a clock half a second after the epoch: the timestamp is exactly the
tolerance ahead. -/
theorem verify_refuses_fresh_iff_half :
    (verify (fun _ _ => epochTag) ⟨[], ⟨0, 500000000, by decide⟩⟩ ⟨500000000, by decide⟩
        (Signing.headerText 1 ['0', '0']) [] = .error .timestampOutOfTolerance →
      ((⟨0, 500000000, by decide⟩ : Duration).asNanos : ℤ) <
        |(500000000 : ℤ) - ((1 : UInt64).toNat : ℤ) * 10 ^ 9|) ↔
    ¬ (((1 : UInt64).toNat : ℤ) =
        (⟨500000000, by decide⟩ : SystemTime).secs + (0 : UInt64).toNat + 1 ∧
      (10 : ℤ) ^ 9 ≤ 500000000 % 10 ^ 9 + (500000000 : ℕ)) :=
  verify_refuses_fresh_iff (fun _ _ => epochTag) [] [] ⟨0, 500000000, by decide⟩
    ⟨500000000, by decide⟩ (by decide) _ 1 [0] ⟨by decide, by decide⟩

end WebhookVerifier

end OutboxPublisher
