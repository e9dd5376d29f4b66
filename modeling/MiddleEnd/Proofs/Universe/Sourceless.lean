/-
  Declarations without their sources. As in code, only snippets keep theirs. All else of a universe
  stays: names, types, flags, attributes, bodies and preconditions are the same up to the sources of
  the code in them. So the loss of sources is a view of the universe (`sourcelessView`), and bodies
  can be taken out and put back on either side of it.
-/
import MiddleEnd.Diagnostic
import MiddleEnd.Proofs.Code.Sourceless
import MiddleEnd.Proofs.Universe.View

namespace MiddleEnd

/-! ## Members -/

def AttributeArgument.sourceless : AttributeArgument → AttributeArgument
  | .positional value => .positional value.sourceless
  | .named name value => .named name value.sourceless

/-- The constructor is a name, which has no source. -/
def Attribute.sourceless (a : Attribute) : Attribute :=
  { a with arguments := a.arguments.map AttributeArgument.sourceless }

def Parameter.sourceless (p : Parameter) : Parameter :=
  { p with attributes := p.attributes.map Attribute.sourceless }

def Precondition.sourceless : Precondition → Precondition
  | .nonNull value => .nonNull value.sourceless

def Body.sourceless (b : Body) : Body := { b with block := b.block.sourceless }

def Method.sourceless (m : Method) : Method :=
  { m with
    parameters := m.parameters.map Parameter.sourceless
    returnAttributes := m.returnAttributes.map Attribute.sourceless
    body := m.body.map Body.sourceless
    preconditions := m.preconditions.map Precondition.sourceless
    implicitPreconditions := m.implicitPreconditions.map Precondition.sourceless }

def Field.sourceless (f : Field) : Field := { f with initializer := exprSourceless f.initializer }

def Property.sourceless (p : Property) : Property :=
  { p with parameters := p.parameters.map Parameter.sourceless }

def MemberKind.sourceless : MemberKind → MemberKind
  | .field f => .field f.sourceless
  | .method m => .method m.sourceless
  | .property p => .property p.sourceless
  | .event e => .event e
  | .nestedType id => .nestedType id
  | .snippet => .snippet

/-- The source of a member, if it is a snippet. -/
def MemberKind.ownSource (source : Option SourceContext) : MemberKind → Option SourceContext
  | .snippet => source
  | _ => none

def Member.sourceless (m : Member) : Member :=
  { m with
    attributes := m.attributes.map Attribute.sourceless
    kind := m.kind.sourceless
    source := m.kind.ownSource m.source }

section

variable (m : Member)

theorem Member.field?_sourceless : m.sourceless.field? = m.field?.map Field.sourceless := by
  obtain ⟨name, declaringType, attributes, kind, source⟩ := m
  cases kind <;> rfl

theorem Member.method?_sourceless : m.sourceless.method? = m.method?.map Method.sourceless := by
  obtain ⟨name, declaringType, attributes, kind, source⟩ := m
  cases kind <;> rfl

theorem Member.isStatic_sourceless : m.sourceless.isStatic = m.isStatic := by
  obtain ⟨name, declaringType, attributes, kind, source⟩ := m
  cases kind <;> rfl

theorem Member.nested_sourceless :
    Universe.nestedTypes [m.sourceless] = Universe.nestedTypes [m] := by
  obtain ⟨name, declaringType, attributes, kind, source⟩ := m
  cases kind <;> rfl

theorem Member.sourceless_modifyMethod {f f' : Method → Method}
    (h : ∀ x, (f x).sourceless = f' x.sourceless) :
    (m.modifyMethod f).sourceless = m.sourceless.modifyMethod f' := by
  obtain ⟨name, declaringType, attributes, kind, source⟩ := m
  cases kind with
  | method method =>
      exact congrArg (fun x => Member.mk name declaringType (attributes.map Attribute.sourceless)
        (.method x) none) (h method)
  | _ => rfl

end

/-! ## Types and modules -/

def TypeKind.sourceless : TypeKind → TypeKind
  | .delegateType parameters returnType =>
    .delegateType (parameters.map Parameter.sourceless) returnType
  | kind => kind

def TypeNode.sourceless (t : TypeNode) : TypeNode :=
  { t with
    kind := t.kind.sourceless
    members := t.members.map Member.sourceless
    attributes := t.attributes.map Attribute.sourceless
    source := none }

theorem TypeNode.isValueType_sourceless (t : TypeNode) :
    t.sourceless.isValueType = t.isValueType := by
  unfold TypeNode.isValueType TypeNode.sourceless
  cases t.kind <;> rfl

def Module.sourceless (m : Module) : Module :=
  { m with
    types := m.types.map TypeNode.sourceless
    attributes := m.attributes.map Attribute.sourceless }

def sourcelessView : View where
  field := Field.sourceless
  method := Method.sourceless
  member := Member.sourceless
  type := TypeNode.sourceless
  module := Module.sourceless
  field_type := fun _ => rfl
  field_flags := fun _ => rfl
  method_kind := fun _ => rfl
  method_flags := fun _ => rfl
  method_returnType := fun _ => rfl
  method_parameters := fun _ => List.isEmpty_map
  method_conditionalSymbol := fun _ => rfl
  member_name := fun _ => rfl
  member_declaringType := fun _ => rfl
  member_isStatic := Member.isStatic_sourceless
  member_field? := Member.field?_sourceless
  member_method? := Member.method?_sourceless
  member_nested := Member.nested_sourceless
  type_name := fun _ => rfl
  type_namespaceName := fun _ => rfl
  type_declaringType := fun _ => rfl
  type_flags := fun _ => rfl
  type_contract := fun _ => rfl
  type_isValueType := TypeNode.isValueType_sourceless
  module_id := fun _ => rfl
  member_modifyMethod := fun m h => m.sourceless_modifyMethod h
  type_withMembers := fun _ _ => rfl
  module_withTypes := fun _ _ => rfl

namespace Universe

def sourceless (u : Universe) : Universe := ⟨u.modules.map Module.sourceless⟩

variable (u : Universe)

theorem type_sourceless (id : TypeId) :
    u.sourceless.type id = (u.type id).map TypeNode.sourceless :=
  sourcelessView.type_view u id

theorem member_sourceless (ref : MemberRef) :
    u.sourceless.member ref = (u.member ref).map Member.sourceless :=
  sourcelessView.member_view u ref

theorem method_sourceless (ref : MemberRef) :
    u.sourceless.method ref = (u.method ref).map Method.sourceless :=
  sourcelessView.method_view u ref

theorem sourceless_modifyMethod (ref : MemberRef) {f f' : Method → Method}
    (h : ∀ m, (f m).sourceless = f' m.sourceless) :
    (u.modifyMethod ref f).sourceless = u.sourceless.modifyMethod ref f' :=
  sourcelessView.modifyMethod_view u ref h

theorem detachBody_sourceless (ref : MemberRef) :
    u.sourceless.detachBody ref =
      (u.detachBody ref).map (Prod.map (Option.map Body.sourceless) sourceless) := by
  unfold detachBody
  rw [method_sourceless]
  rcases u.method ref with e | method
  · rfl
  · have hbodiless : (u.modifyMethod ref fun m => { m with body := none }).sourceless =
        u.sourceless.modifyMethod ref fun m => { m with body := none } :=
      u.sourceless_modifyMethod ref fun _ => rfl
    simp only [Except.map, bind, Except.bind, pure, Except.pure, Prod.map, hbodiless]
    rfl

theorem attachBody_sourceless (ref : MemberRef) (body : Body) :
    u.sourceless.attachBody ref body.sourceless = (u.attachBody ref body).map sourceless := by
  unfold attachBody
  rw [method_sourceless]
  rcases u.method ref with e | method
  · rfl
  · have hattached : (u.modifyMethod ref fun m => { m with body := some body }).sourceless =
        u.sourceless.modifyMethod ref fun m => { m with body := some body.sourceless } :=
      u.sourceless_modifyMethod ref fun _ => rfl
    have hbody : method.sourceless.body.isSome = method.body.isSome := Option.isSome_map
    simp only [Except.map, bind, Except.bind, hbody]
    split
    · rfl
    · exact congrArg Except.ok hattached.symm

end Universe

/-! ## Units -/

mutual

def Namespace.sourceless : Namespace → Namespace
  | ⟨name, namespaces, types, usedNamespaces, _⟩ =>
    ⟨name, namespacesSourceless namespaces, types, usedNamespaces, none⟩

def namespacesSourceless : List Namespace → List Namespace
  | [] => []
  | n :: ns => n.sourceless :: namespacesSourceless ns

end

theorem namespacesSourceless_eq_map (ns : List Namespace) :
    namespacesSourceless ns = ns.map Namespace.sourceless := by
  induction ns with
  | nil => rfl
  | cons n ns ih => rw [namespacesSourceless, ih, List.map_cons]

mutual

theorem Namespace.allTypes_sourceless : (n : Namespace) → n.sourceless.allTypes = n.allTypes
  | ⟨_, namespaces, _, _, _⟩ => by
      rw [Namespace.sourceless, Namespace.allTypes, Namespace.allTypes,
        allTypesOf_sourceless namespaces]

theorem allTypesOf_sourceless : (ns : List Namespace) →
    allTypesOf (namespacesSourceless ns) = allTypesOf ns
  | [] => rfl
  | n :: ns => by
      rw [namespacesSourceless, allTypesOf, allTypesOf, n.allTypes_sourceless,
        allTypesOf_sourceless ns]

end

/-- The unit and its root have a source only if the unit is a snippet, and they keep it. -/
def CompilationUnit.sourceless (u : CompilationUnit) : CompilationUnit :=
  { u with root := { u.root with namespaces := namespacesSourceless u.root.namespaces } }

theorem CompilationUnit.allTypes_sourceless (u : CompilationUnit) :
    u.sourceless.root.allTypes = u.root.allTypes := by
  obtain ⟨_, ⟨_, namespaces, _, _, _⟩, _, _, _⟩ := u
  show _ ++ _ = _ ++ _
  rw [allTypesOf_sourceless]

theorem Universe.unitMethods_sourceless (u : Universe) (unit : CompilationUnit) :
    u.sourceless.unitMethods unit.sourceless = u.unitMethods unit := by
  have hmethods : u.sourceless.typeMethods (u.sourceless.typeCount + 1) =
      u.typeMethods (u.typeCount + 1) := by
    funext id
    rw [show u.sourceless.typeCount = u.typeCount from sourcelessView.typeCount_view u]
    exact sourcelessView.typeMethods_view u _ id
  unfold unitMethods
  rw [hmethods, unit.allTypes_sourceless]

/-! ## Diagnostics and traces -/

def Diagnostic.sourceless (d : Diagnostic) : Diagnostic := { d with source := none }

theorem Sink.hasErrors_sourceless (sink : Sink) :
    Sink.hasErrors (sink.map Diagnostic.sourceless) = sink.hasErrors := by
  unfold Sink.hasErrors
  rw [List.any_map]
  rfl

def TraceEvent.sourceless : TraceEvent → TraceEvent
  | .eliminatedCall symbol callee => .eliminatedCall symbol callee.sourceless
  | .unprovenPrecondition method fact => .unprovenPrecondition method fact.sourceless
  | event => event

end MiddleEnd
