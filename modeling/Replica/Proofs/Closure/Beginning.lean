import Replica.Proofs.Closure.Run
import Replica.Proofs.Network.Beginning

/-! # Where a pipeline begins

A pipeline that has just been started is one node, and nothing of it is closed (`closing_ofPipeline`). -/

namespace Replica

namespace Network

/-- What the scopes of a pipeline are for, in their order. -/
def firstRoles : List Role :=
  [.life .pipeline, .life .pipeline, .ready, .done .coordinator, .life .pipeline, .life .pipeline, .life .pipeline,
    .life .pipeline, .life .pipeline, .life .pipeline, .done (.hub 0)]

/-- The plan of a pipeline. -/
def firstPlan (n : Network) : Plan where
  parts := n.skeleton
  role j := firstRoles[j]?.getD .neutral
  above := n.scopes.parent?
  feed _ := .pipeline
  needs
    | .coordinator => [1]
    | .hub _ => [9, 8]
    | _ => []

section begun

variable {server : Server} {settings : Settings} {detached : Bool} {j p : ScopeId}

theorem of_singleton {α : Type} {a b : α} {i : Nat} (h : [a][i]? = some b) : i = 0 ∧ b = a := by
  cases i with
  | zero => exact ⟨rfl, (Option.some.inj h).symm⟩
  | succ i => cases h

theorem serves_begun : (firstPlan (begun server settings detached)).Serves 0 .pipeline := ⟨_, .pipeline, rfl, rfl, .refl⟩

theorem laid_begun : (firstPlan (begun server settings detached)).Laid where
  above j p _ hp := by
    obtain ⟨rfl, rfl⟩ | ⟨rfl | rfl | rfl | rfl, rfl⟩ := parent?_begun hp <;> exact ⟨.pipeline, .pipeline, rfl, rfl, .inl rfl⟩
  told j t hj := by
    obtain _ | _ | _ | _ | _ | _ | _ | _ | _ | _ | _ | j := j <;> cases hj <;> exact ⟨.pipeline, rfl⟩
  keeper i k hi := by
    obtain ⟨rfl, rfl⟩ := of_singleton hi
    exact ⟨.pipeline, rfl, rfl⟩
  subscription s sub hs := by
    obtain ⟨rfl, rfl⟩ := of_singleton hs
    exact ⟨.pipeline, rfl,
      { scope := rfl
        ready := rfl
        feed := rfl
        bound := Nat.zero_lt_one
        keeper := serves_begun
        above := ⟨_, rfl, rfl⟩ }⟩
  hub i t hi := by
    obtain ⟨rfl, rfl⟩ := of_singleton hi
    exact ⟨.pipeline, rfl,
      { scope := rfl
        done := rfl
        ready := rfl
        keeper := serves_begun
        needs := ⟨_, rfl, rfl⟩ }⟩
  view _ _ hi := nomatch hi
  observer _ _ hi := nomatch hi
  poller := ⟨_, rfl, rfl⟩
  follower := ⟨_, rfl, rfl⟩
  coordinator := ⟨_, rfl,
    { scope := rfl
      done := rfl
      ready := rfl
      feed := rfl
      bound := Nat.zero_lt_one
      keeper := ⟨_, rfl, rfl⟩
      hub := rfl
      needs := rfl }⟩

theorem sound_begun : Sound (firstPlan (begun server settings detached)) [] [] none (begun server settings detached) := by
  have hfired : ∀ j, (begun server settings detached).scopes.isFired j ≠ true := fun j hj => by simp [isFired_begun] at hj
  exact
    { laid := laid_begun
      skeleton := rfl
      marked := nofun
      ordered := ordered_begun
      down := down_begun
      known := by
        intro j hj
        refine Nat.lt_of_not_le fun hle => hj ?_
        have hnone : firstRoles[j]? = none := List.getElem?_eq_none hle
        simp only [firstPlan, hnone, Option.getD_none]
      above := fun j _ => rfl
      fired := fun j x hj => absurd hj (hfired j)
      done := fun j t _ hj => absurd hj (hfired j)
      stopped := by
        intro t j ho
        cases t with
        | hub i =>
            obtain ⟨t, hi, hr, -⟩ := ho
            obtain ⟨-, rfl⟩ := of_singleton hi
            cases hr
        | coordinator =>
            obtain ⟨_, ⟨⟩, ⟨⟩, -⟩ := ho
        | view i | observer i =>
            obtain ⟨_, ⟨⟩, -⟩ := ho
        | _ => cases ho
      feed := by
        intro f feed hf hopen
        obtain ⟨-, rfl⟩ := of_singleton hf
        exact absurd ⟨rfl, rfl⟩ hopen
      hub := by
        intro i t hi
        obtain ⟨-, rfl⟩ := of_singleton hi
        exact ⟨nofun, nofun, nofun, .nil, nofun⟩
      seated := by
        intro s sub i t hs hsub
        obtain ⟨-, rfl⟩ := of_singleton hs
        cases hsub
      view := fun i v hi => nomatch (show none = some v from hi)
      observer := fun i o hi => nomatch (show none = some o from hi)
      coordinator := by
        rintro _ ⟨⟩ ⟨⟩
      poller := by
        rintro _ ⟨⟩ ⟨⟩
      follower := by
        rintro _ ⟨⟩ ⟨⟩
      proper := by
        rintro _ ⟨⟩
        exact ⟨nofun, nofun, fun _ hneeds => hneeds.elim nofun nofun⟩
      session := nofun }

/-- **When a pipeline has just been started, nothing is closed.** -/
theorem closing_ofPipeline {server : Option Server} {n₀ : Network} {above : ScopeId} {branch : Branch}
    (h : ofPipeline server settings detached = .ok (n₀, above, branch)) : Closing [] n₀ :=
  ⟨_, [], Sound.ofData _ [] [] none _ n₀ (data_ofPipeline h) sound_begun, nofun⟩

end begun

end Network

end Replica
