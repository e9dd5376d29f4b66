/-
  Member binding names only members that are there: a name is bound to what a lookup finds, and the
  types that bound expressions get are those of fields and methods of the universe.
-/
import MiddleEnd.Pass.Binding
import MiddleEnd.Proofs.Code.Names
import MiddleEnd.Proofs.Pass.Run

namespace MiddleEnd

theorem Universe.namesOnly_resolveType {u : Universe} {p : MemberRef → Prop} {type : TypeRef}
    (h : NamesOnly p (type.exprs true)) : NamesOnly p ((u.resolveType type).exprs true) := by
  unfold Universe.resolveType
  split
  · split
    · rw [TypeRef.exprs_bound]
      exact namesOnly_nil
    · exact h
  · exact h

namespace Binding

variable {u : Universe}

theorem lookup_names (h : u.Closed) {type : TypeId} {name : String} {found : Found}
    (hl : lookup u type name = some found) :
    u.Has found.member ∧ NamesOnly u.Has (typeExprs true found.valueType) := by
  obtain ⟨ref, -, hl⟩ := Option.bind_eq_some_iff.mp hl
  obtain ⟨member, hm, hl⟩ := Option.bind_eq_some_iff.mp hl
  obtain rfl := Option.some.inj hl
  have hmember : u.member ref = .ok member := by
    rcases hr : u.member ref with e | found
    · rw [hr] at hm
      cases hm
    · rw [hr] at hm
      exact congrArg Except.ok (Option.some.inj hm)
  refine ⟨⟨member, hmember⟩, ?_⟩
  rcases hf : member.field? with _ | field
  · exact namesOnly_nil
  · exact Universe.namesOnly_resolveType (h.fieldType hmember hf)

theorem callType_names (h : u.Closed) (callee : Expr) :
    NamesOnly u.Has (typeExprs true (callType u callee)) := by
  unfold callType
  split
  · split
    · rename_i method hm
      exact Universe.namesOnly_resolveType (h.returnType hm)
    · exact namesOnly_nil
  · exact namesOnly_nil

theorem self_names (owner : TypeId) : NamesOnly u.Has ((self owner).exprs true) := by
  simp [self]

/-- What is bound to a found member names that member and what its receiver names. -/
theorem bindTo_names (h : u.Closed) {e : Expr} {receiver : Option Expr} {type : TypeId}
    {name : String} {found : Found} {s : State} (hl : lookup u type name = some found)
    (hr : NamesOnly u.Has (optionExprs true receiver)) :
    NamesOnly u.Has ((bindTo e receiver found s).1.exprs true) := by
  obtain ⟨hhas, htype⟩ := lookup_names h hl
  exact namesOnly_member.mpr ⟨hhas, hr, htype⟩

theorem bindExpr_names (h : u.Closed) {owner : TypeId} {e : Expr} {s : State}
    (he : NamesOnly u.Has (e.exprs true)) :
    NamesOnly u.Has ((bindExpr u owner e s).1.exprs true) := by
  obtain ⟨form, type, source⟩ := e
  obtain ⟨-, hform, htype⟩ := namesOnly_expr.mp he
  cases form with
  | thisRef =>
      show NamesOnly u.Has (Expr.exprs true ⟨.thisRef, some (.bound owner), source⟩)
      simp
  | identifier name =>
      dsimp only [bindExpr]
      rcases hl : lookup u owner name with _ | found
      · exact he
      · refine bindTo_names h hl ?_
        split
        · exact namesOnly_nil
        · exact self_names owner
  | qualified qualifier name =>
      dsimp only [bindExpr]
      rcases hl : (boundType? qualifier).bind fun type => lookup u type name with _ | found
      · exact he
      · obtain ⟨id, -, hl⟩ := Option.bind_eq_some_iff.mp hl
        exact bindTo_names h hl hform
  | call callee arguments =>
      refine namesOnly_expr.mpr ⟨nofun, hform, ?_⟩
      have hcallee : NamesOnly u.Has (typeExprs true (callType u callee)) := callType_names h callee
      rcases hc : callType u callee with _ | found
      · exact htype
      · rw [hc] at hcallee
        exact hcallee
  | _ => exact he

theorem editor_closed (h : u.Closed) (owner : TypeId) :
    (keepsNames u.Has fun _ : State => True).Closed (editor u owner) := by
  refine keepsNames_closed (fun hw => ?_) (fun hr => ?_) rfl (fun ht hv _ => ?_) fun _ => rfl
  · intro s
    obtain ⟨walked, s', run, keeps⟩ := hw s
    refine ⟨_, _, Edit.bind_run run _, fun hn hs => ?_⟩
    exact ⟨bindExpr_names h (keeps hn hs).1, trivial⟩
  · exact keepsNames_member hr
  · exact keepsNames_walk ht hv

theorem pass_sound (layout : TypeId → Option TypeNode) : pass.Sound layout where
  editBody := by
    intro u body ref state hu hn
    obtain ⟨h, -⟩ := (editor_closed hu.closed ref.type).editBlock body.block {} hn trivial
    exact ⟨rfl, h⟩
  finishMethod := fun hs _ => .pure hs

end Binding

end MiddleEnd
