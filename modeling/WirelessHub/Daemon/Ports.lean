import WirelessHub.Daemon.Ownership

/-!
# Ports of sessions

Every session holds a port that is marked as used, and no two sessions hold the same one.
The first-free scan of `attach` never returns a port of a session, so the invariant follows
the port table through `attach`, `detach` and `freePort`.
-/

namespace WirelessHub

open Function

namespace VhciDriver

variable {v : VhciDriver} {port : Nat}

theorem freeSlot_some (h : v.freeSlot = some port) : port < maxPorts ∧ v.ports port = false := by
  have hm := List.mem_of_find?_eq_some h
  have hp := List.find?_some h
  exact ⟨List.mem_range.mp hm, by simpa using hp⟩

theorem freeSlot_none (h : v.freeSlot = none) {i : Nat} (hi : i < maxPorts) : v.ports i = true := by
  have hn := List.find?_eq_none.mp h i (List.mem_range.mpr hi)
  simpa using hn

theorem attach_of_free (h : v.freeSlot = some port) :
    v.attach true = ((port : Int), ⟨update v.ports port true⟩) := by
  simp [attach, h]

theorem attach_nonneg {sysfs : Bool} (h : 0 ≤ (v.attach sysfs).1) :
    ∃ port, v.freeSlot = some port ∧ sysfs = true ∧
      v.attach sysfs = ((port : Int), ⟨update v.ports port true⟩) := by
  cases hf : v.freeSlot with
  | none => simp [attach, hf] at h
  | some port =>
    cases sysfs with
    | false => simp [attach, hf] at h
    | true => exact ⟨port, rfl, rfl, attach_of_free hf⟩

theorem attach_neg {sysfs : Bool} (h : (v.attach sysfs).1 < 0) : (v.attach sysfs).2 = v := by
  cases hf : v.freeSlot with
  | none => simp [attach, hf]
  | some port =>
    cases sysfs with
    | false => simp [attach, hf]
    | true => simp [attach, hf] at h; omega

theorem freePort_ports (v : VhciDriver) {q : Int} (h₀ : 0 ≤ q) (h₁ : q < maxPorts) (i : Nat) :
    (v.freePort q).ports i = if i = q.toNat then false else v.ports i := by
  simp [freePort, h₀, h₁, update_apply]

theorem detach_of_used {q : Int} (h₀ : 0 ≤ q) (h₁ : q < maxPorts) (hu : v.ports q.toNat = true)
    (sysfs : Bool) : (v.detach q sysfs).2 = if sysfs then v.freePort q else v := by
  have hr : ¬(q < 0 ∨ q ≥ maxPorts ∨ v.ports q.toNat = false) := by
    rw [hu]
    simp only [Bool.true_eq_false, or_false, not_or, ge_iff_le]
    omega
  cases sysfs <;> simp [detach, hr, freePort, h₀, h₁]

end VhciDriver

/-- The ports of sessions are in range, marked as used and pairwise distinct. -/
structure PortsOk (hub : HubServer) (vhci : VhciDriver) : Prop where
  used : ∀ p s, hub.heap p = some s →
    0 ≤ s.vhciPort ∧ s.vhciPort < maxPorts ∧ vhci.ports s.vhciPort.toNat = true
  inj : ∀ p q s t, hub.heap p = some s → hub.heap q = some t → s.vhciPort = t.vhciPort → p = q

namespace PortsOk

variable {hub : HubServer} {vhci : VhciDriver}

theorem drop (h : PortsOk hub vhci) {p : SessionPtr} {s t : DeviceSession} {d : UInt8}
    (hs : hub.heap p = some s) (freed : Bool) :
    PortsOk (hub.dropSession d p t) (if freed then vhci.freePort s.vhciPort else vhci) := by
  refine ⟨fun q r hq => ?_, fun q₁ q₂ r₁ r₂ h₁ h₂ he => ?_⟩
  · obtain ⟨hqp, hr⟩ := HubServer.heap_of_dropSession hq
    obtain ⟨h₀, h₁, hu⟩ := h.used q r hr
    refine ⟨h₀, h₁, ?_⟩
    cases freed with
    | false => exact hu
    | true =>
      obtain ⟨k₀, k₁, -⟩ := h.used p s hs
      have hne : r.vhciPort.toNat ≠ s.vhciPort.toNat := by
        intro he
        exact hqp (h.inj q p r s hr hs (by omega))
      simpa [VhciDriver.freePort_ports vhci k₀ k₁, hne] using hu
  · exact h.inj q₁ q₂ r₁ r₂ (HubServer.heap_of_dropSession h₁).2
      (HubServer.heap_of_dropSession h₂).2 he

theorem mark (h : PortsOk hub vhci) (port : Nat) :
    PortsOk hub ⟨update vhci.ports port true⟩ := by
  refine ⟨fun q r hq => ?_, h.inj⟩
  obtain ⟨h₀, h₁, hu⟩ := h.used q r hq
  refine ⟨h₀, h₁, ?_⟩
  by_cases he : r.vhciPort.toNat = port <;> simp [he, hu]

theorem add (h : PortsOk hub vhci) {s : DeviceSession} {port : Nat}
    (hf : vhci.freeSlot = some port) (hp : s.vhciPort = port) :
    PortsOk (hub.addSession s) ⟨update vhci.ports port true⟩ := by
  obtain ⟨hlt, hfree⟩ := VhciDriver.freeSlot_some hf
  have hold : ∀ q r, hub.heap q = some r → r.vhciPort ≠ port := by
    intro q r hr he
    have hu := (h.used q r hr).2.2
    rw [he, Int.toNat_natCast, hfree] at hu
    exact absurd hu (by simp)
  refine ⟨fun q r hq => ?_, fun q₁ q₂ r₁ r₂ h₁ h₂ he => ?_⟩
  · rcases HubServer.heap_of_addSession hq with ⟨-, rfl⟩ | ⟨-, hr⟩
    · rw [hp, Int.toNat_natCast]
      exact ⟨by omega, by omega, by simp⟩
    · exact (h.mark port).used q r hr
  · rcases HubServer.heap_of_addSession h₁ with ⟨hq₁, hr₁⟩ | ⟨-, hr₁⟩ <;>
      rcases HubServer.heap_of_addSession h₂ with ⟨hq₂, hr₂⟩ | ⟨-, hr₂⟩
    · rw [hq₁, hq₂]
    · exact absurd (by rw [← he, hr₁, hp]) (hold q₂ r₂ hr₂)
    · exact absurd (by rw [he, hr₂, hp]) (hold q₁ r₁ hr₁)
    · exact h.inj q₁ q₂ r₁ r₂ hr₁ hr₂ he

theorem forward (h : PortsOk hub vhci) {p : SessionPtr} {s : DeviceSession}
    {h₁ : Option PassthroughHandler} (hs : hub.heap p = some s) :
    PortsOk { hub with heap := update hub.heap p (some { s with handler := h₁ }) } vhci := by
  have hheap : ∀ q r, update hub.heap p (some { s with handler := h₁ }) q = some r →
      ∃ r', hub.heap q = some r' ∧ r'.vhciPort = r.vhciPort := by
    intro q r hq
    rcases HubServer.heap_of_update hq with ⟨rfl, rfl⟩ | ⟨-, hr⟩
    · exact ⟨s, hs, rfl⟩
    · exact ⟨r, hr, rfl⟩
  refine ⟨fun q r hq => ?_, fun q₁ q₂ r₁ r₂ h₁ h₂ he => ?_⟩
  · obtain ⟨r', hr', hp⟩ := hheap q r hq
    exact hp ▸ h.used q r' hr'
  · obtain ⟨r₁', hr₁, hp₁⟩ := hheap q₁ r₁ h₁
    obtain ⟨r₂', hr₂, hp₂⟩ := hheap q₂ r₂ h₂
    exact h.inj q₁ q₂ r₁' r₂' hr₁ hr₂ (by rw [hp₁, hp₂, he])

end PortsOk
end WirelessHub
