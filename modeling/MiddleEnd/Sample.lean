/-
  Sample code trees.
-/
import MiddleEnd.CodeTree.Basic

namespace MiddleEnd.Sample

open CodeTree

/-- A public class without members. -/
def classNamed (name : String) : TypeDeclaration :=
  { name, kind := .classType, attributes := .publicType }

/-- A public struct without members. -/
def structNamed (name : String) : TypeDeclaration :=
  { name, kind := .structType, attributes := .publicType }

/-- A unit with one namespace. -/
def unitWith (ns : String) (types : List TypeDeclaration) : CompileUnit :=
  { namespaces := [{ name := ns, types }] }

/-- A field of the object at hand. -/
def ownField (name : String) : Expr := (ExprForm.fieldRef (some ExprForm.thisRef.node) name).node

/-- The return of a value. -/
def returns (value : Expr) : Stmt := (StmtForm.methodReturn (some value)).node

/-- The modifiers of a public method. -/
def publicMethod : MemberAttributes := ⟨0x6002⟩

/-- The type of guards. -/
def guard : TypeReference := .named "Microsoft.Contracts.Guard"

/-- Whole numbers of 32 bits. -/
def int32 : TypeReference := .named "System.Int32"

/-- Holds the guard. -/
def frame : FieldDeclaration := { name := "frame", type := guard }

/-- Hands the guard out. -/
def getFrame : MethodDeclaration where
  name := "GetFrame"
  attributes := publicMethod
  returnType := some guard
  statements := [returns (ownField "frame")]

/-- A field for the balance. -/
def balance : FieldDeclaration := { name := "balance", type := int32 }

/-- A method that returns the account itself. -/
def next : MethodDeclaration where
  name := "Next"
  attributes := publicMethod
  returnType := some (.named "Bank.Account")
  statements := [returns ExprForm.thisRef.node]

/-- Exists only where `DEBUG` is defined. -/
def log : MethodDeclaration where
  name := "Log"
  attributes := .publicStatic
  parameters := [{ name := "message", type := int32 }]
  customAttributes := [{
    name := "System.Diagnostics.Conditional"
    arguments := [⟨none, (ExprForm.primitive (.string "DEBUG")).node⟩] }]

/-- Writes through a call, then logs. -/
def deposit : MethodDeclaration where
  name := "Deposit"
  attributes := publicMethod
  statements := [
    (StmtForm.assign
      (ExprForm.fieldRef
        (some (ExprForm.methodInvoke (some ExprForm.thisRef.node) "Next" []).node) "balance").node
      (ExprForm.binary (ownField "balance") .add (ExprForm.primitive (.int32 1)).node).node).node,
    (StmtForm.expression (ExprForm.methodInvoke none "Log" [ownField "balance"]).node).node]

/-- Private, and reads the balance. -/
def audit : MethodDeclaration where
  name := "Audit"
  returnType := some int32
  statements := [returns (ownField "balance")]

/-- A bank account whose state sits behind a guard. -/
def account : TypeDeclaration := { classNamed "Account" with
  members := [
    (MemberForm.field frame).node,
    (MemberForm.method getFrame).node,
    (MemberForm.field balance).node,
    (MemberForm.method next).node,
    (MemberForm.method log).node,
    (MemberForm.method deposit).node,
    (MemberForm.method audit).node] }

/-- A unit with one class. -/
def bank : CompileUnit where
  referencedAssemblies := ["System", "Microsoft.Contracts"]
  namespaces := [{ name := "Bank", imports := ["System"], types := [account] }]

end MiddleEnd.Sample
