/-
  A small universe: the guard type, and a wallet whose coins sit behind a guard. `Spare` hands out
  another wallet, but calls of it stay only where `DEBUG` is defined.
-/
import MiddleEnd.Pass.WellKnown

namespace MiddleEnd.Wallet

def guardId : TypeId := ⟨⟨0⟩, ⟨0⟩⟩

def walletId : TypeId := ⟨⟨0⟩, ⟨1⟩⟩

def frame : MemberRef := ⟨walletId, 0⟩

def coins : MemberRef := ⟨walletId, 1⟩

def getFrame : MemberRef := ⟨walletId, 2⟩

def spare : MemberRef := ⟨walletId, 3⟩

def checks : WellKnown where
  guardType := guardId
  checkIsReading := ⟨guardId, 0⟩
  checkIsWriting := ⟨guardId, 1⟩

def memberOf (owner : TypeId) (name : String) (kind : MemberKind) : Member :=
  { name, declaringType := owner, kind }

def guardNode : TypeNode where
  kind := .classType
  name := "Guard"
  namespaceName := "Microsoft.Contracts"
  declaringModule := ⟨0⟩
  members := [
    memberOf guardId WellKnown.readingName (.method {}),
    memberOf guardId WellKnown.writingName (.method {})]

def walletNode : TypeNode where
  kind := .classType
  name := "Wallet"
  declaringModule := ⟨0⟩
  members := [
    memberOf walletId "frame" (.field { type := .bound guardId }),
    memberOf walletId "coins" (.field { type := .int32 }),
    memberOf walletId "GetFrame" (.method { returnType := .bound guardId }),
    memberOf walletId "Spare"
      (.method { returnType := .bound walletId, conditionalSymbol := some "DEBUG" })]
  contract := some { getter := some getFrame, field := some frame }

def types : Universe :=
  ⟨⟨#[{ id := ⟨0⟩, name := "wallets", types := ⟨#[guardNode, walletNode]⟩ }]⟩⟩

/-- The wallet whose method is running. -/
def self : Expr := ExprForm.thisRef.expr

/-- `this.Spare()` -/
def spareOfSelf : Expr := (ExprForm.call (ExprForm.member (some self) spare).expr []).expr

def coinsOf (wallet : Expr) : Expr := (ExprForm.member (some wallet) coins).expr

/-- `this.Spare().coins = this.coins` -/
def copyCoins : Body where
  block := { statements := [.assignment (coinsOf spareOfSelf) (coinsOf self)] }

end MiddleEnd.Wallet
