import Replica.Pipeline
import Replica.Proofs.Network.Data
import Replica.Proofs.Network.Firing

/-! # The network of a new pipeline

What there is when a pipeline has just been started (`data_ofPipeline`), and how its scopes are arranged. -/

namespace Replica

namespace Network

/-- A network with a pipeline that has just been started, with nobody to go on. -/
def begun (server : Server) (settings : Settings) (detached : Bool) : Network :=
  { new server with
    scopes := ⟨[⟨none, false⟩, ⟨if detached then none else some 0, false⟩, ⟨none, false⟩, ⟨none, false⟩, ⟨some 1, false⟩,
      ⟨none, false⟩, ⟨some 1, false⟩, ⟨some 1, false⟩, ⟨some 1, false⟩, ⟨none, false⟩, ⟨none, false⟩]⟩
    feeds := [.new settings.subscriptionBuffer]
    subscriptions := [⟨0, 8, 2, 0, none⟩]
    keepers := [⟨.new .acceptAll, 4, 5⟩]
    hubs := [⟨.new settings.subscriptionBuffer, .subscription 0, 9, 2, 10, 0, [], false, none, true, false⟩]
    poller := some ⟨.new, settings.refreshPeriod.ceilMillis, 0, 6⟩
    follower := some ⟨.new settings.reconnect settings.watchBuffer, 7, none, false, none⟩
    coordinator := some ⟨.new, 1, 2, 3, 0, 0, 0, none⟩ }

theorem data_ofPipeline {server : Option Server} {settings : Settings} {detached : Bool} {n₀ : Network} {above : ScopeId}
    {branch : Branch} (h : ofPipeline server settings detached = .ok (n₀, above, branch)) :
    n₀.data = (begun (server.getD default) settings detached).data := by
  unfold ofPipeline at h
  split at h
  · cases h
  · obtain ⟨rfl, -⟩ := Prod.mk.inj (Except.ok.inj h)
    cases detached <;> rfl

section begun

variable {server : Server} {settings : Settings} {detached : Bool} {j p : ScopeId}

theorem parent?_begun (h : (begun server settings detached).scopes.parent? j = some p) :
    j = 1 ∧ p = 0 ∨ (j = 4 ∨ j = 6 ∨ j = 7 ∨ j = 8) ∧ p = 1 := by
  obtain _ | _ | _ | _ | _ | _ | _ | _ | _ | _ | _ | j := j <;> cases detached <;> cases h <;> decide

theorem isFired_begun (j : ScopeId) : (begun server settings detached).scopes.isFired j = false := by
  obtain _ | _ | _ | _ | _ | _ | _ | _ | _ | _ | _ | j := j <;> rfl

theorem ordered_begun : (begun server settings detached).scopes.Ordered := by
  intro j p hp
  obtain ⟨rfl, rfl⟩ | ⟨rfl | rfl | rfl | rfl, rfl⟩ := parent?_begun hp <;> decide

theorem down_begun : (begun server settings detached).scopes.Down := fun j p _ hp => by simp [isFired_begun] at hp

end begun

end Network

end Replica
