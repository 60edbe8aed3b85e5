import SciAttention.Dispatch.Backends

/-!
# The dispatcher

Model of `src/runtime/dispatcher.cpp`, `dispatch_table.inc`, `sca::attention` and `ExtractCode`. `select`
returns the decision that `Explain` prints and that `Forward` executes; `Routing` says in one line which
backend that is.
-/

namespace SciAttention

/-! ## Thresholds and preferences -/

/-- `decode_max_seq_q`. -/
def decodeMaxSeqQ : ℕ := 1

/-- `decode_min_seq_kv`. -/
def decodeMinSeqKv : ℕ := 256

/-- `tiled_max_seq_kv`. -/
def tiledMaxSeqKv : ℕ := 128

/-- The table's `revision`. -/
def tableRevision : String := "r0"

/-- `FallbackChain`. -/
def fallbackChain : BackendKind → List BackendKind
  | .flash => [.tiled, .naive]
  | .decode => [.flash, .tiled, .naive]
  | .paged => [.decode, .tiled, .naive]
  | .tiled => [.naive]
  | _ => []

/-- `sca::DispatchDecision`. -/
structure DispatchDecision where
  backend : BackendKind := .auto
  tile : TileConfig := {}
  workspaceBytes : ℕ := 0
  reason : String
deriving DecidableEq, Repr

/-- The preferred backend with the origin of the choice and its explanation. -/
structure Preference where
  backend : BackendKind
  origin : String
  why : String

section Dispatcher

variable {𝕜 : Type} [Field 𝕜] [LinearOrder 𝕜]

/-- The first half of `Select`: the caller's backend, or the one of the threshold cascade. -/
def preference (cfg : AttentionConfig 𝕜) (shape : AttentionShape) : Preference :=
  if cfg.backend ≠ .auto then ⟨cfg.backend, "explicit", "backend=" ++ backendName cfg.backend⟩
  else if shape.seqQ ≤ decodeMaxSeqQ ∧ shape.seqKv ≥ decodeMinSeqKv then
    ⟨.decode, "auto", "seq_q=" ++ toString shape.seqQ ++ " <=" ++ toString decodeMaxSeqQ ++
      " and seq_kv=" ++ toString shape.seqKv ++ " >= " ++ toString decodeMinSeqKv ++
      " => decode (low arithmetic intensity)"⟩
  else if shape.seqQ * 8 ≤ shape.seqKv ∧ shape.seqKv ≥ decodeMinSeqKv then
    ⟨.flash, "auto", "seq_q*8=" ++ toString (shape.seqQ * 8) ++ " <= seq_kv=" ++
      toString shape.seqKv ++
      " => grouped small-q prefill on flash (decode kernel is S_q=1 only)"⟩
  else if shape.seqKv ≤ tiledMaxSeqKv then
    ⟨.tiled, "auto", "seq_kv=" ++ toString shape.seqKv ++ " <= " ++ toString tiledMaxSeqKv ++
      " => tiled (short sequence, smem resident)"⟩
  else
    ⟨.flash, "auto", "seq_q=" ++ toString shape.seqQ ++ ", seq_kv=" ++ toString shape.seqKv ++
      " => flash (tile + online softmax)"⟩

/-! ## Selection -/

/-- `Validate`'s message, which `Select` gets through `detail`: the status without its code. -/
def statusDetail (s : Status) : String := String.ofList ((s.message.toList.dropWhile (· ≠ ' ')).tail)

variable (num : Numerics 𝕜) (dev : Device)

/-- The tile of a decision: the report's, or the recommended one when the report has none. -/
def decisionTile (shape : AttentionShape) (report : CapabilityReport) : TileConfig :=
  if report.tile.isEmpty then recommendTile shape else report.tile

/-- `AttentionDispatcher::Select`. -/
def select (cfg : AttentionConfig 𝕜) (shape : AttentionShape) : DispatchDecision :=
  let valid := validate num cfg shape
  if ¬ valid.isOk then { reason := "invalid: " ++ statusDetail valid }
  else
    let pref := preference cfg shape
    let report := supports dev cfg shape pref.backend
    if report.supported then
      { backend := pref.backend
        tile := decisionTile shape report
        workspaceBytes := report.workspaceBytes
        reason := pref.origin ++ ": " ++ pref.why ++ " [table=" ++ tableRevision ++ ", workspace=" ++
          toString report.workspaceBytes ++ " B]" }
    else
      let unsupported := pref.origin ++ ": " ++ pref.why ++ " => unsupported(" ++
        backendName pref.backend ++ "): " ++ report.reason
      let decision (reason : String) : DispatchDecision :=
        { backend := pref.backend, tile := recommendTile shape
          workspaceBytes := report.workspaceBytes, reason }
      if ¬ cfg.allowFallback then
        decision (unsupported ++ " [table=" ++ tableRevision ++ ", allow_fallback=false]")
      else
        -- the first backend of the chain that supports the shape
        match (fallbackChain pref.backend).find? fun b => (supports dev cfg shape b).supported with
        | some candidate =>
          let alt := supports dev cfg shape candidate
          { backend := candidate
            tile := decisionTile shape alt
            workspaceBytes := alt.workspaceBytes
            reason := "fallback: " ++ backendName pref.backend ++ " unsupported (" ++ report.reason ++
              ") => " ++ backendName candidate ++ "; " ++ pref.origin ++ ": " ++ pref.why ++
              " [table=" ++ tableRevision ++ ", allow_fallback=true]" }
        | none =>
          decision (unsupported ++ "; no fallback backend supports shape " ++ summarizeShape shape)

/-- `AttentionDispatcher::Explain`. -/
def explain (cfg : AttentionConfig 𝕜) (shape : AttentionShape) : String :=
  let decision := select num dev cfg shape
  "backend=" ++ backendName decision.backend ++ "; tile=\x7b" ++ decision.tile.toText ++
    "\x7d; workspace=" ++ toString decision.workspaceBytes ++ " B; reason=" ++ decision.reason

/-! ## Execution -/

variable {dev}

/-- `AttentionDispatcher::Forward`. The lookup never returns a null backend. -/
def dispatcherForward (env : ForwardEnv 𝕜 dev) (q k v : Tensor) (cfg : AttentionConfig 𝕜) :
    Except Status (AttentionResult 𝕜) := do
  let shape ← inferShape q k v cfg.layout
  let decision := select num dev cfg shape
  failIf (decision.backend = .auto) .shapeMismatch decision.reason
  let report := supports dev cfg shape decision.backend
  failIf (report.supported = false) .deviceCapability report.reason
  forward num env q k v cfg decision.backend

/-- `sca::attention`. -/
def attention (env : ForwardEnv 𝕜 dev) (q k v : Tensor) (cfg : AttentionConfig 𝕜) :
    Except Status (AttentionResult 𝕜) :=
  dispatcherForward num env q k v cfg

end Dispatcher

/-! ## Codes -/

/-- `std::atoi` on the digits at the start of a text. -/
def atoi (text : List Char) : ℕ :=
  (text.takeWhile Char.isDigit).foldl (fun n c => n * 10 + (c.toNat - '0'.toNat)) 0

/-- The rest of a text behind the first occurrence of `pattern`. -/
def findAfter (pattern : List Char) : List Char → Option (List Char)
  | [] => if pattern = [] then some [] else none
  | c :: text =>
    if pattern.isPrefixOf (c :: text) then some ((c :: text).drop pattern.length)
    else findAfter pattern text

/-- `ExtractCode`, as the integer value of the enumeration; `kOk` is 0. -/
def extractCode (s : Status) : ℕ :=
  match findAfter "[SCA-".toList s.message.toList with
  | none => 0
  | some rest => atoi rest

/-- The message of `MakeStatus`, character by character. -/
theorem makeStatus_message_toList (code : AttnStatusCode) (detail : String) :
    (makeStatus code detail).message.toList =
      "[SCA-".toList ++ ((toString code.toInt32).toList ++ (']' :: ' ' :: detail.toList)) := by
  simp [makeStatus, String.toList_append]

/-- Reading stops at the bracket behind the digits. -/
theorem atoi_code (code : AttnStatusCode) (rest : List Char) :
    atoi ((toString code.toInt32).toList ++ (']' :: rest)) = code.toInt32 := by
  have hdigits : (toString code.toInt32).toList.all Char.isDigit = true ∧
      (toString code.toInt32).toList.foldl (fun n c => n * 10 + (c.toNat - '0'.toNat)) 0 =
        code.toInt32 := by
    cases code <;> decide
  have hstop : (']' :: rest).takeWhile Char.isDigit = [] := List.takeWhile_cons_of_neg (by decide)
  rw [atoi, List.takeWhile_append_of_pos (List.all_eq_true.mp hdigits.1), hstop, List.append_nil,
    hdigits.2]

/-- `ExtractCode` reads back the code of `MakeStatus`. -/
theorem extractCode_makeStatus (code : AttnStatusCode) (detail : String) :
    extractCode (makeStatus code detail) = code.toInt32 := by
  rw [extractCode, makeStatus_message_toList]
  exact atoi_code code (' ' :: detail.toList)

/-- Different attention codes are told apart. -/
theorem toInt32_injective : Function.Injective AttnStatusCode.toInt32 := by
  intro a b h
  cases a <;> cases b <;> first | rfl | exact absurd h (by decide)

/-- `detail` is the message without its code. -/
theorem statusDetail_makeStatus (code : AttnStatusCode) (detail : String) :
    statusDetail (makeStatus code detail) = detail := by
  have hcode : ∀ rest : List Char,
      ("[SCA-".toList ++ ((toString code.toInt32).toList ++ (']' :: ' ' :: rest))).dropWhile
        (· ≠ ' ') = ' ' :: rest := by
    intro rest
    cases code <;> rfl
  rw [statusDetail, makeStatus_message_toList, hcode, List.tail_cons, String.ofList_toList]

end SciAttention
