/-! # Benchmarked host operations

    The host primitives whose cost must be charged before they run.  Each has
    the identifier under which cost model tables list it, and a label that
    messages show.
-/

namespace CalibratedCosts

/-- A host primitive with a calibrated cost. -/
inductive HostOperation where
  | wasmInsnExec
  | wasmMemAlloc
  | hostMemAlloc
  | hostMemCpy
  | hostMemCmp
  | invokeHostFunction
  | invokeContract
  | visitObject
  | valSer
  | valDeser
  | computeSha256Hash
  | computeKeccak256Hash
  | computeEd25519PubKey
  | verifyEd25519Sig
  | computeEcdsaSecp256k1Sig
  | recoverEcdsaSecp256k1Key
  | prngDraw
  | numOp
  | vmInstantiation
  deriving DecidableEq

namespace HostOperation

def all : List HostOperation :=
  [.wasmInsnExec, .wasmMemAlloc, .hostMemAlloc, .hostMemCpy, .hostMemCmp, .invokeHostFunction,
   .invokeContract, .visitObject, .valSer, .valDeser, .computeSha256Hash, .computeKeccak256Hash,
   .computeEd25519PubKey, .verifyEd25519Sig, .computeEcdsaSecp256k1Sig,
   .recoverEcdsaSecp256k1Key, .prngDraw, .numOp, .vmInstantiation]

/-- The identifier in cost model tables. -/
def identifier : HostOperation → String
  | .wasmInsnExec => "WasmInsnExec"
  | .wasmMemAlloc => "WasmMemAlloc"
  | .hostMemAlloc => "HostMemAlloc"
  | .hostMemCpy => "HostMemCpy"
  | .hostMemCmp => "HostMemCmp"
  | .invokeHostFunction => "InvokeHostFunction"
  | .invokeContract => "InvokeContract"
  | .visitObject => "VisitObject"
  | .valSer => "ValSer"
  | .valDeser => "ValDeser"
  | .computeSha256Hash => "ComputeSha256Hash"
  | .computeKeccak256Hash => "ComputeKeccak256Hash"
  | .computeEd25519PubKey => "ComputeEd25519PubKey"
  | .verifyEd25519Sig => "VerifyEd25519Sig"
  | .computeEcdsaSecp256k1Sig => "ComputeEcdsaSecp256k1Sig"
  | .recoverEcdsaSecp256k1Key => "RecoverEcdsaSecp256k1Key"
  | .prngDraw => "PrngDraw"
  | .numOp => "NumOp"
  | .vmInstantiation => "VmInstantiation"

/-- The label in messages. -/
def label : HostOperation → String
  | .wasmInsnExec => "WASM_INSN_EXEC"
  | .wasmMemAlloc => "WASM_MEM_ALLOC"
  | .hostMemAlloc => "HOST_MEM_ALLOC"
  | .hostMemCpy => "HOST_MEM_CPY"
  | .hostMemCmp => "HOST_MEM_CMP"
  | .invokeHostFunction => "INVOKE_HOST_FUNCTION"
  | .invokeContract => "INVOKE_CONTRACT"
  | .visitObject => "VISIT_OBJECT"
  | .valSer => "VAL_SER"
  | .valDeser => "VAL_DESER"
  | .computeSha256Hash => "COMPUTE_SHA256_HASH"
  | .computeKeccak256Hash => "COMPUTE_KECCAK256_HASH"
  | .computeEd25519PubKey => "COMPUTE_ED25519_PUBKEY"
  | .verifyEd25519Sig => "VERIFY_ED25519_SIG"
  | .computeEcdsaSecp256k1Sig => "COMPUTE_ECDSA_SECP256K1_SIG"
  | .recoverEcdsaSecp256k1Key => "RECOVER_ECDSA_SECP256K1_KEY"
  | .prngDraw => "PRNG_DRAW"
  | .numOp => "NUM_OP"
  | .vmInstantiation => "VM_INSTANTIATION"

def ofLabel? (label : String) : Option HostOperation := all.find? (·.label = label)

end HostOperation
end CalibratedCosts
