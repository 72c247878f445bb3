/-
How many tokens a request may have, over a contributor and over Petals.

A contributor is sent `max_tokens or 64` and allows at most 512; the Petals path
has the configured default and cap. Both stop at the end-of-sequence token, and
where that is the last one the budget allows one says `stop` and the other
`length`. `budgets_agree_iff` says exactly when the two agree.
-/
import Blitzwing.Generation
import Blitzwing.Layers

namespace Blitzwing

variable {H S G P ω : Type} {servers : Servers ω (ChainRequest P) (Except ChainError P)} {w : ω}

/-! ## Tokens that end -/

/-- The last token is the end-of-sequence token. -/
def EndsWith (eos : Option Nat) (tokens : List Nat) : Prop := ∃ token ∈ tokens.getLast?, eos = .some token

instance (eos : Option Nat) (tokens : List Nat) : Decidable (EndsWith eos tokens) :=
  inferInstanceAs (Decidable (∃ token ∈ tokens.getLast?, _))

/-- Tokens up to the first end-of-sequence token, or as many as the budget allows. -/
structure Ends (eos : Option Nat) (budget : Int) (tokens : List Nat) : Prop where
  le : tokens.length ≤ budget
  first : ∀ token ∈ tokens.dropLast, eos ≠ .some token
  ended : EndsWith eos tokens ∨ tokens.length = budget

section

variable {eos : Option Nat} {token : Nat} {tokens : List Nat} {budget : Int}

theorem endsWith_cons (hne : eos ≠ .some token) : EndsWith eos (token :: tokens) ↔ EndsWith eos tokens := by
  cases tokens with
  | nil => simp [EndsWith, hne]
  | cons next rest => simp [EndsWith, List.getLast?_cons_cons]

theorem Ends.cons (hne : eos ≠ .some token) (h : Ends eos budget tokens) : Ends eos (budget + 1) (token :: tokens) where
  le := by
    have := h.le
    rw [List.length_cons]
    omega
  first := by
    intro t ht
    cases tokens with
    | nil => cases ht
    | cons next rest =>
      obtain rfl | ht := List.mem_cons.1 (List.dropLast_cons_cons ▸ ht)
      · exact hne
      · exact h.first t ht
  ended := by
    rw [endsWith_cons hne, List.length_cons]
    exact h.ended.imp_right fun hlength => by omega

end

namespace HttpChain

variable {node : Node H S G P} {runner : LocalShardRunner} {manifest : ManifestDict} {upstream : List ManifestHost}

/-! ## Over a contributor -/

/-- The tokens a run appended. -/
def tokensOf {α : Type} (out : Outcome ω (TokenNote H) ChainError α) : List Nat := out.notes.map (·.nextId)

/-- A step's hidden state is computed without a token. -/
theorem silent_stepHidden (tokenIds : List Nat) :
    (stepHidden node runner manifest upstream tokenIds).Meets (fun _ _ => True) (fun _ => False) fun _ => True := by
  have hpy : ∀ {α : Type} (x : Except PyError α),
      (py x : Chain H P α).Meets (fun _ _ => True) (fun _ => False) fun _ => True := fun _ => trivial
  have hanswer : ∀ resp : Except ChainError P,
      (liftM resp >>= fun payload => py (node.codec.fromPayload payload) : Chain H P H).Meets (fun _ _ => True)
        (fun _ => False) fun _ => True := by
    intro resp
    cases resp <;> trivial
  cases upstream with
  | nil => exact trivial
  | cons first mids =>
    refine (hpy _).bind (fun firstUrl _ => ?_) fun _ _ => trivial
    refine Remote.Meets.bind (fun resp _ => hanswer resp) (fun hidden _ => ?_) fun _ _ => trivial
    refine Remote.Meets.bind (Remote.Meets.foldlM (I := fun _ => True) ?_ trivial) (fun _ _ => trivial) fun _ _ => trivial
    intro hidden _ mid _
    refine (hpy _).bind (fun midUrl _ => ?_) fun e _ => fun a ha => nomatch ha
    exact Remote.Meets.imp (fun resp _ => hanswer resp) (fun _ (h : False) => h) fun _ _ _ _ => trivial

/-- A run that ended with this result has tokens that end, and reports them. -/
def Reports (node : Node H S G P) (budget : Int) (out : Outcome ω (TokenNote H) ChainError InferenceResult) : Prop :=
  ∀ result, out.result = .ok result → Ends node.tokenizer.eosTokenId budget (tokensOf out) ∧
    result.completionTokens = (tokensOf out).length ∧
    result.finishReason = if EndsWith node.tokenizer.eosTokenId (tokensOf out) then "stop" else "length"

theorem reports_error {budget : Int} {e : ChainError} :
    Reports node budget (servers.run w (.done (.error e) : Chain H P InferenceResult)) := fun _ h => nomatch h

/-- What Python computes before the rest. -/
theorem reports_py_bind {α : Type} {budget : Int} {x : Except PyError α} {f : α → Chain H P InferenceResult}
    (h : ∀ a, Reports node budget (servers.run w (f a))) : Reports node budget (servers.run w (py x >>= f)) := by
  cases x with
  | ok a => exact h a
  | error e => exact reports_error

section

variable [Zero S] [One S] [Mul S] [Div S] [LT S] [LE S] [DecidableLT S] [DecidableLE S]

/-- `max(1, min(int(max_tokens), 512))` -/
def maxNewTokens (maxTokens : Int) : Int := max 1 (min maxTokens 512)

/-- **The decode loop**, for so many tokens more: it appends tokens that end,
and says whether the last one is the end-of-sequence token. -/
theorem ends_decodeLoop {inputIds : List Nat} {penalty : S} {args : SamplingArgs S} {steps : Nat}
    {generated tokens : List Nat} {reason : String} {gen : G}
    (h : (servers.run w (decodeLoop node runner manifest upstream inputIds penalty args steps generated gen)).result =
      .ok (tokens, reason)) :
    ∃ drawn, tokens = generated ++ drawn ∧
      tokensOf (servers.run w (decodeLoop node runner manifest upstream inputIds penalty args steps generated gen)) =
        drawn ∧
      Ends node.tokenizer.eosTokenId steps drawn ∧
      reason = if EndsWith node.tokenizer.eosTokenId drawn then "stop" else "length" := by
  induction steps generalizing generated gen w with
  | zero =>
    obtain ⟨rfl, rfl⟩ := Prod.mk.inj (Except.ok.inj h)
    exact ⟨[], (List.append_nil _).symm, rfl, ⟨by simp, by simp, .inr rfl⟩, by simp [EndsWith]⟩
  | succ steps ih =>
    rw [decodeLoop] at h ⊢
    obtain ⟨hidden, -, hrest, hnotes⟩ := Servers.run_bind_ok h
    rw [tokensOf, hnotes, Servers.notes_of_silent (silent_stepHidden _), List.nil_append]
    generalize (servers.run w (stepHidden node runner manifest upstream (inputIds ++ generated))).world = w' at hrest ⊢
    cases htoken : stepToken node runner penalty args generated hidden gen with
    | error e =>
      rw [htoken] at hrest
      cases hrest
    | ok next =>
      obtain ⟨nextId, gen'⟩ := next
      simp only [htoken, Remote.liftM_ok_bind, Remote.jot_bind, Servers.run_note, List.map_cons] at hrest ⊢
      by_cases heos : node.tokenizer.eosTokenId = .some nextId
      · simp only [if_pos heos, Servers.run_pure] at hrest ⊢
        obtain ⟨rfl, rfl⟩ := Prod.mk.inj (Except.ok.inj hrest)
        have hends : EndsWith node.tokenizer.eosTokenId [nextId] := ⟨nextId, rfl, heos⟩
        exact ⟨[nextId], rfl, rfl, ⟨by simp, by simp, .inl hends⟩, (if_pos hends).symm⟩
      · simp only [if_neg heos] at hrest ⊢
        obtain ⟨drawn, rfl, hdrawn, hends, rfl⟩ := ih hrest
        refine ⟨nextId :: drawn, by simp, congrArg (nextId :: ·) hdrawn, ?_, by simp only [endsWith_cons heos]⟩
        exact_mod_cast hends.cons heos

theorem reports_generateOver (messages : List MessageDict) (args : SamplingArgs S) (gen : G) :
    Reports node (maxNewTokens args.maxTokens)
      (servers.run w (generateOver node runner manifest upstream messages args gen)) := by
  refine reports_py_bind fun _ => reports_py_bind fun inputIds => reports_py_bind fun penalty => ?_
  intro result h
  obtain ⟨⟨generated, reason⟩, hloop, hresult, hnotes⟩ := Servers.run_bind_ok h
  obtain ⟨drawn, hgenerated, hdrawn, hends, hreason⟩ := ends_decodeLoop hloop
  obtain rfl := Except.ok.inj hresult
  have htokens := congrArg (List.map TokenNote.nextId) hnotes
  rw [Servers.run_pure, List.append_nil] at htokens
  have hbudget : ((max 1 (min args.maxTokens 512)).toNat : Int) = maxNewTokens args.maxTokens := by
    unfold maxNewTokens
    omega
  simp only [tokensOf] at hdrawn ⊢
  simp only [htokens, hdrawn]
  refine ⟨hbudget ▸ hends, ?_, hreason⟩
  rw [hgenerated, List.nil_append]

/-- **A generation over a chain** has tokens that end, at most so many as it is
asked for and 512, and reports them. -/
theorem reports_generate (chain : HttpChainInference) (messages : List MessageDict) (args : SamplingArgs S) (gen : G) :
    Reports node (maxNewTokens args.maxTokens)
      (servers.run w (generate node chain messages args (.some manifest) gen)) := by
  refine reports_py_bind fun hosts => reports_py_bind fun _ => reports_py_bind fun localBlocks => ?_
  cases hlast : hosts.getLast? with
  | none => exact reports_error
  | some tail =>
    refine reports_py_bind fun tailBlocks => ?_
    dsimp only
    split
    · exact reports_error
    · exact reports_generateOver messages args gen

end

end HttpChain

/-! ## Over Petals -/

section

variable {settings : EngineSettings} {client : PetalsClient S} {args : GenerateArgs S} [Zero S] [LE S] [DecidableLE S]

/-- What `_generate_once` reports of a completion. -/
theorem generateOnce_of_completion {inputIds tokens : List Nat}
    (hids : inputIdsOf client args.messages = .ok inputIds)
    (htokens : client.generate inputIds
      (generationKwargs client args.temperature args.topP (capMaxTokens settings args.maxTokens)) = .ok (inputIds ++ tokens)) :
    generateOnce settings (.ok client) args = .ok
      { text := client.tokenizer.decode tokens, promptTokens := inputIds.length, completionTokens := tokens.length
        finishReason := finishReasonOf tokens.length (capMaxTokens settings args.maxTokens) } := by
  have hclient : generateOnce settings (.ok client) args =
      (inputIdsOf client args.messages).bind fun inputIds =>
        (client.generate inputIds
          (generationKwargs client args.temperature args.topP (capMaxTokens settings args.maxTokens))).bind fun outputIds =>
            .ok ⟨client.tokenizer.decode (outputIds.drop inputIds.length), inputIds.length,
              (outputIds.drop inputIds.length).length,
              finishReasonOf (outputIds.drop inputIds.length).length (capMaxTokens settings args.maxTokens)⟩ := rfl
  rw [hclient, hids]
  simp only [Except.bind, htokens, List.drop_left]

end

/-! ## One budget -/

/-- What is asked for, where it is not zero. -/
def askedTokens (maxTokens : Option Int) : Int := max 1 (min (maxTokens.getD 64) 512)

/-- The two budgets are one. -/
def BudgetsMeet (settings : EngineSettings) : Option Int → Prop
  | .none => settings.defaultMaxTokens = 64 ∧ 64 ≤ settings.hardMaxTokens ∨
      64 ≤ settings.defaultMaxTokens ∧ settings.hardMaxTokens = 64
  | .some maxTokens => maxTokens < 0 ∨
      0 < maxTokens ∧ (maxTokens ≤ settings.hardMaxTokens ∧ maxTokens ≤ 512 ∨ settings.hardMaxTokens = 512)

theorem budget_eq_iff [OfScientific S] {settings : EngineSettings} (hhard : 1 ≤ settings.hardMaxTokens)
    (manifest : ManifestDict) (args : GenerateArgs S) :
    HttpChain.maxNewTokens (contributorPayload manifest args).maxTokens = capMaxTokens settings args.maxTokens ↔
      BudgetsMeet settings args.maxTokens := by
  unfold HttpChain.maxNewTokens contributorPayload capMaxTokens BudgetsMeet
  cases args.maxTokens with
  | none => simp only [Option.getD_none]; omega
  | some maxTokens => simp only [Option.getD_some]; split <;> omega

theorem capMaxTokens_of_meet {settings : EngineSettings} (hhard : 1 ≤ settings.hardMaxTokens) {maxTokens : Option Int}
    (h : BudgetsMeet settings maxTokens) : capMaxTokens settings maxTokens = askedTokens maxTokens := by
  unfold capMaxTokens askedTokens
  unfold BudgetsMeet at h
  cases maxTokens with
  | none => simp only [Option.getD_none]; omega
  | some maxTokens => simp only [Option.getD_some]; omega

theorem capMaxTokens_le (settings : EngineSettings) (maxTokens : Option Int) :
    capMaxTokens settings maxTokens ≤ settings.hardMaxTokens :=
  min_le_right _ _

section

variable {node : Node H S G P} {chain : HttpChainInference} {manifest : ManifestDict} {gen : G} [Zero S] [One S] [Mul S]
  [Div S] [LT S] [LE S] [DecidableLT S] [DecidableLE S] [OfScientific S] {settings : EngineSettings}
  {client : PetalsClient S} {args : GenerateArgs S}

/-- What a contributor's answer says of its tokens. -/
theorem reports_contributor {http : GenerationResult}
    (h : (servers.run w (generateViaContributorHttp node chain manifest args gen)).result = .ok http) :
    let tokens := HttpChain.tokensOf (servers.run w (generateViaContributorHttp node chain manifest args gen))
    Ends node.tokenizer.eosTokenId (HttpChain.maxNewTokens (contributorPayload manifest args).maxTokens) tokens ∧
      http.completionTokens = tokens.length ∧
      http.finishReason = if EndsWith node.tokenizer.eosTokenId tokens then "stop" else "length" := by
  obtain ⟨data, hdata, hresult, hnotes⟩ := Servers.run_bind_ok h
  obtain rfl := Except.ok.inj hresult
  have htokens : HttpChain.tokensOf (servers.run w (generateViaContributorHttp node chain manifest args gen)) =
      HttpChain.tokensOf (servers.run w (contributorChat node chain (contributorPayload manifest args) gen)) := by
    refine congrArg (List.map _) (hnotes.trans ?_)
    rw [Servers.run_pure, List.append_nil]
  obtain ⟨hends, hcount, hreason⟩ := HttpChain.reports_generate _ _ _ _ data hdata
  simp only [htokens]
  exact ⟨hends, congrArg Nat.cast hcount, hreason⟩

/-- **The two paths have one budget and report alike** exactly if the configured
default and cap give what is asked for, and the end-of-sequence token is not the
last token the budget allows. -/
theorem budgets_agree_iff (hhard : 1 ≤ settings.hardMaxTokens) {http petals : GenerationResult}
    (hhttp : (servers.run w (generateViaContributorHttp node chain manifest args gen)).result = .ok http)
    {tokens inputIds : List Nat}
    (htokens : HttpChain.tokensOf (servers.run w (generateViaContributorHttp node chain manifest args gen)) = tokens)
    (hids : inputIdsOf client args.messages = .ok inputIds)
    (hgenerate : client.generate inputIds
      (generationKwargs client args.temperature args.topP (capMaxTokens settings args.maxTokens)) = .ok (inputIds ++ tokens))
    (hpetals : generateOnce settings (.ok client) args = .ok petals) :
    (HttpChain.maxNewTokens (contributorPayload manifest args).maxTokens = capMaxTokens settings args.maxTokens ∧
        HttpChain.maxNewTokens (contributorPayload manifest args).maxTokens ≤ settings.hardMaxTokens ∧
        capMaxTokens settings args.maxTokens ≤ settings.hardMaxTokens ∧
        http.finishReason = petals.finishReason ∧ http.completionTokens = petals.completionTokens) ↔
      BudgetsMeet settings args.maxTokens ∧
        ¬ (EndsWith node.tokenizer.eosTokenId tokens ∧ tokens.length = askedTokens args.maxTokens) := by
  obtain ⟨hends, hcount, hreason⟩ := reports_contributor hhttp
  simp only [htokens] at hends hcount hreason
  obtain rfl := Except.ok.inj ((generateOnce_of_completion hids hgenerate).symm.trans hpetals)
  rw [budget_eq_iff hhard]
  simp only [hreason, hcount, finishReasonOf, and_true]
  constructor
  · intro h
    obtain ⟨hmeet, -, -, hsame⟩ := h
    refine ⟨hmeet, fun hlast => ?_⟩
    rw [if_pos hlast.1, capMaxTokens_of_meet hhard hmeet, hlast.2, if_pos le_rfl] at hsame
    exact absurd hsame (by decide)
  · intro h
    obtain ⟨hmeet, hlast⟩ := h
    have hbudget := (budget_eq_iff hhard manifest args).2 hmeet
    have hcap := capMaxTokens_le settings args.maxTokens
    refine ⟨hmeet, hbudget ▸ hcap, hcap, ?_⟩
    rw [hbudget] at hends
    rw [← capMaxTokens_of_meet hhard hmeet] at hlast
    by_cases hstop : EndsWith node.tokenizer.eosTokenId tokens
    · have hlt : ¬ (tokens.length : Int) ≥ capMaxTokens settings args.maxTokens := by
        have hle := hends.le
        have hne : ¬ (tokens.length : Int) = capMaxTokens settings args.maxTokens := fun heq => hlast ⟨hstop, heq⟩
        omega
      rw [if_pos hstop, if_neg hlt]
    · rw [if_neg hstop, if_pos (hends.ended.resolve_left hstop).ge]

end

/-! ### A model whose first token is the last -/

/-- The same over Petals. -/
def shortClient : PetalsClient Rat where
  tokenizer := traceNode.tokenizer
  plainTokens _ := 1
  generate inputIds _ := .ok (inputIds ++ [0])
  stream _ _ := ([""], .none)

def wholeManifest : ManifestDict := ⟨.some "m", .some 4, [chainHost "a" 0 4]⟩

def shortArgs (maxTokens : Option Int) : GenerateArgs Rat := ⟨[], maxTokens, .some 0, .some 1⟩

/-- The run over the one contributor. -/
def shortRun (maxTokens : Option Int) : Outcome Shards (TokenNote (List Nat)) ChainError GenerationResult :=
  (Shards.servers traceNode).run (fun _ => .none)
    (generateViaContributorHttp traceNode ⟨⟨0, 4⟩, "0:4"⟩ wholeManifest (shortArgs maxTokens) ())

theorem budgets_agree_iff_eight :
    (HttpChain.maxNewTokens (contributorPayload wholeManifest (shortArgs (.some 8))).maxTokens =
          capMaxTokens {} (.some 8) ∧
        HttpChain.maxNewTokens (contributorPayload wholeManifest (shortArgs (.some 8))).maxTokens ≤ 512 ∧
        capMaxTokens {} (.some 8) ≤ 512 ∧ "stop" = "stop" ∧ (1 : Int) = 1) ↔
      BudgetsMeet {} (.some 8) ∧ ¬ (EndsWith (.some 0) [0] ∧ ([0] : List Nat).length = askedTokens (.some 8)) :=
  have hhttp : (shortRun (.some 8)).result = .ok ⟨"", 1, 1, "stop"⟩ := by decide +kernel
  have hids : inputIdsOf shortClient (shortArgs (.some 8)).messages = .ok [7] := rfl
  have hpetals : generateOnce {} (.ok shortClient) (shortArgs (.some 8)) = .ok ⟨"", 1, 1, "stop"⟩ := rfl
  budgets_agree_iff (by decide) hhttp (by decide +kernel) hids rfl hpetals

/-- **The two paths have different budgets**: without a limit, with the limit
zero, and over a smaller cap, which a contributor exceeds. And with the limit
one, where the first token ends both, they report different reasons. -/
theorem budgets_differ :
    (HttpChain.maxNewTokens (contributorPayload wholeManifest (shortArgs .none)).maxTokens = 64 ∧
        capMaxTokens {} .none = 256) ∧
      (HttpChain.maxNewTokens (contributorPayload wholeManifest (shortArgs (.some 0))).maxTokens = 64 ∧
        capMaxTokens {} (.some 0) = 1) ∧
      (HttpChain.maxNewTokens (contributorPayload wholeManifest (shortArgs (.some 300))).maxTokens = 300 ∧
        capMaxTokens { hardMaxTokens := 100 } (.some 300) = 100) ∧
      (shortRun (.some 1)).result = .ok ⟨"", 1, 1, "stop"⟩ ∧ HttpChain.tokensOf (shortRun (.some 1)) = [0] ∧
      generateOnce {} (.ok shortClient) (shortArgs (.some 1)) = .ok ⟨"", 1, 1, "length"⟩ := by
  decide +kernel

end Blitzwing
