import Mathlib

/-! # RPC errors

The error type of the RPC surface, with the Bitcoin Core codes the modelled paths answer.
-/

namespace Zecd

/-- A JSON-RPC error: its code and the text shown to the client. -/
structure RpcError where
  code : ℤ
  message : String
  deriving DecidableEq, Repr

namespace RpcError

def misc (message : String) : RpcError := ⟨-1, message⟩
def typeError (message : String) : RpcError := ⟨-3, message⟩
def wallet (message : String) : RpcError := ⟨-4, message⟩
def invalidAddressOrKey (message : String) : RpcError := ⟨-5, message⟩
def insufficientFunds (message : String) : RpcError := ⟨-6, message⟩
def invalidParameter (message : String) : RpcError := ⟨-8, message⟩
def clientInInitialDownload (message : String) : RpcError := ⟨-10, message⟩
def walletNotFound (message : String) : RpcError := ⟨-18, message⟩

def unlockNeeded : RpcError :=
  ⟨-13, "Error: Please enter the wallet passphrase with walletpassphrase first."⟩

end RpcError

end Zecd
