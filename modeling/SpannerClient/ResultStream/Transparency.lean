import SpannerClient.Machine.Containers
import SpannerClient.ResultStream.Backpressure

/-!
# Transparency of backpressure

For every reader the rows are those of a reader that never pushes back, `next` is
called once for every set but the last one, `resumed` follows the `paused` events
before the next set is taken, and the stream stops early only when it has tried
to resume as often as it may (`Transparent`).  But a try to resume enqueues
`undefined`, which is no row; so the stream is transparent exactly as long as it
does not try.

`FlowInv` relates a stream to the one that is not hindered; adding a set and trying
to resume keep it, the latter but for what it enqueues.  The main result is
`transparent_iff_unprobed`, for every run of sets and timers.
-/

namespace SpannerClient
namespace ResultStream

open Machine
open PartialResultStream

variable {δ ρ : Type} {options : RowOptions δ ρ}

/-! ## The order of the outputs -/

/-- After every `paused` there has been a `resumed`. -/
def Resumed
    (log : List (Output ρ)) : Prop :=
  ∀ a b, log = a ++ .paused :: b → .resumed ∈ b

/-- A set is taken only after every `paused` has been followed by a `resumed`. -/
def ResumedFirst
    (log : List (Output ρ)) : Prop :=
  ∀ a b, log = a ++ .taken :: b → Resumed a

theorem Resumed.append
    {log outputs : List (Output ρ)}
    (h : Resumed log)
    (hpaused : .paused ∉ outputs) :
    Resumed (log ++ outputs) := by
  intro a b heq
  obtain ⟨b', hlog, rfl⟩ := split_left_of_not_mem heq hpaused
  exact List.mem_append_left _ (h a b' hlog)

theorem resumed_append_of_mem
    {log outputs : List (Output ρ)}
    (hresumed : .resumed ∈ outputs)
    (hpaused : .paused ∉ outputs) :
    Resumed (log ++ outputs) := by
  intro a b heq
  obtain ⟨b', -, rfl⟩ := split_left_of_not_mem heq hpaused
  exact List.mem_append_right _ hresumed

theorem ResumedFirst.append
    {log outputs : List (Output ρ)}
    (h : ResumedFirst log)
    (htaken : .taken ∉ outputs) :
    ResumedFirst (log ++ outputs) := by
  intro a b heq
  obtain ⟨b', hlog, -⟩ := split_left_of_not_mem heq htaken
  exact h a b' hlog

theorem ResumedFirst.take
    {log : List (Output ρ)}
    (h : ResumedFirst log) (hresumed : Resumed log) :
    ResumedFirst (log ++ [.taken]) := by
  intro a b heq
  rcases split_snoc heq with ⟨rfl, -⟩ | ⟨b', hlog⟩
  · exact hresumed
  · exact h a b' hlog

/-! ## The specification -/

/-- The stream behaves as for a reader that never pushes back. -/
structure Transparent
    (options : RowOptions δ ρ) (f : Flow ρ) : Prop where
  /-- What has been enqueued are the rows. -/
  rows :
    f.log.filterMap Output.enqueued =
      (unhindered options f.taken).rows.map some
  /-- `next` has been called once for every set that is not the last, but for the
  one after which the stream is paused. -/
  next :
    f.log.countP Output.isNext + f.stream.waiting.toNat =
      f.taken.countP fun chunk => !chunk.last
  resumed : ResumedFirst f.log
  /-- It takes the next set, has taken the last one, tries to resume, or has been
  destroyed. -/
  goesOn :
    (∀ chunk, (flowStep options f (.chunk chunk)).isSome = true) ∨
      (f.stream.ended = true ∧
          f.taken.getLast?.any PartialResultSet.last = true) ∨
      (flowStep options f .timer).isSome = true ∨
      f.stream.destroyed = true
  /-- It is destroyed after as many failed tries as the options say. -/
  destroyed :
    f.stream.destroyed = true →
      List.replicate options.maxResumeRetries (.pushed none false) <:+ f.log

/-- The stream does not try to resume, and the set can be decoded. -/
def Unprobed
    (options : RowOptions δ ρ) (f : Flow ρ) : FlowEvent → Prop
  | .chunk chunk => Decodes options f.stream chunk
  | .timer => False

/-! ## The invariant -/

/-- What holds of every run. -/
structure FlowInv
    (options : RowOptions δ ρ) (f : Flow ρ) : Prop where
  stream : f.stream.withoutReader = unhindered options f.taken
  logged : f.log.filterMap Output.enqueued = f.stream.pushed
  next :
    f.stream.thrown = false →
      f.log.countP Output.isNext + f.stream.waiting.toNat =
        f.taken.countP fun chunk => !chunk.last
  first : ResumedFirst f.log
  resumed :
    f.stream.waiting = false → f.stream.ended = false → Resumed f.log
  counted : f.stream.waiting = false → f.stream.numPushFailed = 0
  probes :
    List.replicate f.stream.numPushFailed (.pushed none false) <:+ f.log
  gaveUp :
    f.stream.gaveUp = true →
      f.stream.waiting = true ∧
        f.stream.numPushFailed = options.maxResumeRetries
  destroyed : f.stream.destroyed = f.stream.gaveUp
  ended :
    f.stream.ended = true →
      f.taken.getLast?.any PartialResultSet.last = true

variable {f g : Flow ρ}

theorem map_some_reduceOption
    {xs : List (Option ρ)}
    (h : none ∉ xs) :
    xs.reduceOption.map some = xs := by
  induction xs with
  | nil =>
      rfl
  | cons x xs ih =>
      cases x with
      | none =>
          exact absurd List.mem_cons_self h
      | some x =>
          rw [List.reduceOption_cons_of_some, List.map_cons,
            ih fun hmem => h (List.mem_cons_of_mem _ hmem)]

theorem FlowInv.rows
    (h : FlowInv options f) :
    (unhindered options f.taken).rows = f.stream.rows := by
  rw [← h.stream, rows_withoutReader]

/-- With nothing but rows enqueued and no exception the stream is transparent. -/
theorem FlowInv.transparent
    (h : FlowInv options f)
    (hrows : none ∉ f.stream.pushed) (hthrown : f.stream.thrown = false) :
    Transparent options f where
  rows := by
    rw [h.logged, h.rows]
    exact (map_some_reduceOption hrows).symm
  next := h.next hthrown
  resumed := h.first
  goesOn := by
    by_cases hwaiting : f.stream.waiting = true
    · by_cases hgaveUp : f.stream.gaveUp = true
      · exact Or.inr (Or.inr (Or.inr (h.destroyed.trans hgaveUp)))
      · exact Or.inr (Or.inr (Or.inl (by simp [flowStep, hwaiting, hgaveUp])))
    · by_cases hended : f.stream.ended = true
      · exact Or.inr (Or.inl ⟨hended, h.ended hended⟩)
      · refine Or.inl fun chunk => ?_
        simp [flowStep, hwaiting, hended, hthrown]
  destroyed := by
    intro hdestroyed
    obtain ⟨-, hcount⟩ := h.gaveUp (h.destroyed.symm.trans hdestroyed)
    rw [← hcount]
    exact h.probes

theorem unhindered_snoc
    (options : RowOptions δ ρ) (chunks : List PartialResultSet)
    (chunk : PartialResultSet) :
    unhindered options (chunks ++ [chunk]) =
      (unhindered options chunks).transform options chunk := by
  rw [unhindered, List.foldl_append]
  rfl

theorem FlowInv.stream_snoc
    (h : FlowInv options f) (chunk : PartialResultSet) :
    (f.stream.transform options chunk).withoutReader =
      unhindered options (f.taken ++ [chunk]) := by
  rw [unhindered_snoc, ← h.stream, transform_withoutReader]

/-- A set that cannot be decoded. -/
theorem FlowInv.throws
    (h : FlowInv options f)
    (hwaiting : f.stream.waiting = false) (hended : f.stream.ended = false)
    {chunk : PartialResultSet}
    (htransform :
      f.stream.transform options chunk =
        { f.stream with
          fields := f.stream.fields.or chunk.metadata
          thrown := true }) :
    FlowInv options
      { stream := f.stream.transform options chunk
        taken := f.taken ++ [chunk]
        log := f.log ++ [.taken] } where
  stream := h.stream_snoc chunk
  logged := by
    rw [htransform, List.filterMap_append, h.logged]
    exact List.append_nil _
  next := by
    rw [htransform]
    exact nofun
  first := h.first.take (h.resumed hwaiting hended)
  resumed := by
    intro _ _
    exact (h.resumed hwaiting hended).append (by simp)
  counted := by
    rw [htransform]
    exact h.counted
  probes := by
    have hcount : (f.stream.transform options chunk).numPushFailed = 0 := by
      rw [htransform]
      exact h.counted hwaiting
    rw [hcount]
    exact List.nil_suffix
  gaveUp := by
    rw [htransform]
    exact h.gaveUp
  destroyed := by
    rw [htransform]
    exact h.destroyed
  ended := by
    rw [htransform]
    intro hended'
    rw [hended] at hended'
    cases hended'

theorem countP_isNext_of_ofValue
    {outputs : List (Output ρ)}
    (h : ∀ o ∈ outputs, o.ofValue) :
    outputs.countP Output.isNext = 0 := by
  rw [List.countP_eq_zero]
  intro o ho
  have hvalue := h o ho
  cases o with
  | pushed x more => simp [Output.isNext]
  | paused => simp [Output.isNext]
  | taken => cases hvalue
  | resumed => cases hvalue
  | next => cases hvalue

/-- A set that has been added. -/
theorem FlowInv.adds
    (h : FlowInv options f)
    (hwaiting : f.stream.waiting = false) (hended : f.stream.ended = false)
    (hthrown : f.stream.thrown = false)
    {chunk : PartialResultSet} {t : PartialResultStream ρ} {res : Bool}
    {outputs : List (Output ρ)}
    (hadds : Adds f.stream true (t, res) outputs)
    (htransform :
      f.stream.transform options chunk =
        if chunk.last then { t with ended := true }
        else { t with waiting := !res }) :
    FlowInv options
      { stream := f.stream.transform options chunk
        taken := f.taken ++ [chunk]
        log :=
          f.log ++
            (.taken :: outputs ++
              if t.thrown || chunk.last || !res then [] else [.next]) } := by
  have hcontrol := hadds.control
  simp only [PartialResultStream.control, Prod.mk.injEq] at hcontrol
  obtain ⟨hw, he, hth, hn, hg, hd⟩ := hcontrol
  rw [hwaiting] at hw
  rw [hended] at he
  rw [hthrown] at hth
  rw [h.counted hwaiting] at hn
  have hgaveUp : f.stream.gaveUp = false := by
    by_contra hnot
    rw [Bool.not_eq_false] at hnot
    have hcase := (h.gaveUp hnot).1
    rw [hwaiting] at hcase
    cases hcase
  have hdestroyed := h.destroyed
  rw [hgaveUp] at hg hdestroyed
  rw [hdestroyed] at hd
  have hresumed := h.resumed hwaiting hended
  have htaken : .taken ∉ outputs := fun hmem => hadds.ofValue _ hmem
  have hcount := countP_isNext_of_ofValue hadds.ofValue
  have hnext := h.next hthrown
  rw [hwaiting] at hnext
  have hstream := h.stream_snoc chunk
  rw [htransform] at hstream ⊢
  have hfirst :
      ∀ tail : List (Output ρ), .taken ∉ tail →
        ResumedFirst (f.log ++ (.taken :: outputs ++ tail)) := by
    intro tail htail
    have hmem : .taken ∉ outputs ++ tail := by simp [htaken, htail]
    have happend := (h.first.take hresumed).append hmem
    rw [List.append_assoc] at happend
    exact happend
  have hlogged :
      ∀ tail : List (Output ρ), tail.filterMap Output.enqueued = [] →
        (f.log ++ (.taken :: outputs ++ tail)).filterMap Output.enqueued =
          t.pushed := by
    intro tail htail
    rw [hadds.pushed, ← h.logged]
    simp [htail, List.filterMap_cons, Output.enqueued]
  have hnext' :
      (t.thrown || chunk.last || !res) = (chunk.last || !res) := by
    rw [hth, Bool.false_or]
  rw [hnext']
  cases hlast : chunk.last with
  | true =>
      rw [hlast, if_pos rfl] at hstream
      rw [if_pos rfl, Bool.true_or, if_pos rfl]
      refine
        { stream := hstream
          logged := hlogged [] rfl
          next := fun _ => ?_
          first := hfirst [] List.not_mem_nil
          resumed := fun _ hnot => by cases hnot
          counted := fun _ => hn
          probes := by rw [hn]; exact List.nil_suffix
          gaveUp := fun hcase => by rw [hg] at hcase; cases hcase
          destroyed := hd.trans hg.symm
          ended := fun _ => ?_ }
      · simp only [List.countP_append, List.countP_cons, hcount, hw, hlast,
          Output.isNext, List.countP_nil]
        simpa using hnext
      · rw [List.getLast?_concat]
        exact hlast
  | false =>
      rw [hlast, if_neg Bool.false_ne_true] at hstream
      rw [if_neg Bool.false_ne_true, Bool.false_or]
      refine
        { stream := hstream
          logged := hlogged _ (by cases res <;> rfl)
          next := fun _ => ?_
          first := hfirst _ (by cases res <;> simp)
          resumed := fun hnot _ => ?_
          counted := fun _ => hn
          probes := by rw [hn]; exact List.nil_suffix
          gaveUp := fun hcase => by rw [hg] at hcase; cases hcase
          destroyed := hd.trans hg.symm
          ended := fun hcase => by rw [he] at hcase; cases hcase }
      · simp only [List.countP_append, List.countP_cons, hcount, hlast,
          Output.isNext, List.countP_nil]
        cases res <;> simp [Output.isNext] <;> simpa using hnext
      · have hres : res = true := by simpa using hnot
        subst hres
        obtain ⟨-, hpaused⟩ := hadds.notPaused rfl
        exact hresumed.append (by simp [hpaused])

theorem tryResume_cases
    (options : RowOptions δ ρ) (s : PartialResultStream ρ) :
    (tryResumeOutputs s = [.pushed none true, .resumed, .next] ∧
        s.tryResume options =
          { (s.push none).1 with
            numPushFailed := 0
            waiting := false }) ∨
      (tryResumeOutputs s = [.pushed none false] ∧
        s.tryResume options =
          { (s.push none).1 with
            numPushFailed := s.numPushFailed + 1
            gaveUp := decide (s.numPushFailed + 1 = options.maxResumeRetries)
            destroyed :=
              s.destroyed ||
                decide (s.numPushFailed + 1 = options.maxResumeRetries) }) := by
  have hpush : (s.push none).2 = s.answers.headD true := rfl
  rw [tryResumeOutputs, tryResume]
  dsimp only
  rw [hpush]
  cases s.answers.headD true with
  | true =>
      exact Or.inl ⟨rfl, rfl⟩
  | false =>
      exact Or.inr ⟨rfl, rfl⟩

/-- A try to resume, which may be answered in two ways. -/
theorem FlowInv.tryResume
    (h : FlowInv options f)
    (hwaiting : f.stream.waiting = true)
    (hgaveUp : f.stream.gaveUp = false) :
    FlowInv options
      { f with
        stream := f.stream.tryResume options
        log := f.log ++ tryResumeOutputs f.stream } := by
  have hstream := tryResume_withoutReader options f.stream
  have hdestroyed := h.destroyed.trans hgaveUp
  have hnext := h.next
  rw [hwaiting] at hnext
  rcases tryResume_cases options f.stream with
    ⟨houtputs, htry⟩ | ⟨houtputs, htry⟩ <;> rw [houtputs]
  · refine
      { stream := hstream.trans h.stream
        logged := ?_
        next := ?_
        first := h.first.append (by simp)
        resumed := fun _ _ => resumed_append_of_mem (by simp) (by simp)
        counted := fun _ => by rw [htry]
        probes := ?_
        gaveUp := ?_
        destroyed := ?_
        ended := ?_ } <;> rw [htry]
    · rw [List.filterMap_append, h.logged]
      rfl
    · intro hthrown
      rw [List.countP_append]
      exact hnext hthrown
    · exact List.nil_suffix
    · intro hcase
      exact absurd (hgaveUp.symm.trans hcase) Bool.false_ne_true
    · exact h.destroyed
    · exact h.ended
  · refine
      { stream := hstream.trans h.stream
        logged := ?_
        next := ?_
        first := h.first.append (by simp)
        resumed := ?_
        counted := ?_
        probes := ?_
        gaveUp := ?_
        destroyed := ?_
        ended := ?_ } <;> rw [htry]
    · rw [List.filterMap_append, h.logged]
      rfl
    · intro hthrown
      rw [List.countP_append]
      exact (hwaiting ▸ hnext hthrown :)
    · intro hcase
      exact absurd (hcase.symm.trans hwaiting) Bool.false_ne_true
    · intro hcase
      exact absurd (hcase.symm.trans hwaiting) Bool.false_ne_true
    · obtain ⟨before, hbefore⟩ := h.probes
      refine ⟨before, ?_⟩
      rw [← hbefore, List.append_assoc]
      exact congrArg (before ++ ·) List.replicate_succ'
    · intro hcase
      exact ⟨hwaiting, of_decide_eq_true hcase⟩
    · rw [hdestroyed]
      exact Bool.false_or _
    · exact h.ended

/-- Where a step starts. -/
theorem flowStep_chunk
    {chunk : PartialResultSet}
    (hstep : flowStep options f (.chunk chunk) = some g) :
    f.stream.waiting = false ∧ f.stream.ended = false ∧
      f.stream.thrown = false ∧
      g =
        { stream := f.stream.transform options chunk
          taken := f.taken ++ [chunk]
          log := f.log ++ transformOutputs options f.stream chunk } := by
  obtain ⟨hready, heq⟩ := Option.ite_none_left_eq_some.mp hstep
  simp only [Bool.or_eq_true, not_or, Bool.not_eq_true] at hready
  exact ⟨hready.1.1, hready.1.2, hready.2, (Option.some.inj heq).symm⟩

theorem flowStep_timer
    (hstep : flowStep options f .timer = some g) :
    f.stream.waiting = true ∧ f.stream.gaveUp = false ∧
      g =
        { f with
          stream := f.stream.tryResume options
          log := f.log ++ tryResumeOutputs f.stream } := by
  obtain ⟨hset, heq⟩ := Option.ite_none_right_eq_some.mp hstep
  simp only [Bool.and_eq_true, Bool.not_eq_true'] at hset
  exact ⟨hset.1, hset.2, (Option.some.inj heq).symm⟩

theorem flowStep_inv
    {e : FlowEvent}
    (h : FlowInv options f)
    (hstep : flowStep options f e = some g) :
    FlowInv options g := by
  cases e with
  | chunk chunk =>
      obtain ⟨hwaiting, hended, hthrown, rfl⟩ := flowStep_chunk hstep
      rcases transform_cases options f.stream chunk with
        ⟨-, htransform, houtputs⟩ |
          ⟨-, t, res, outputs, hadds, htransform, houtputs⟩
      · rw [houtputs]
        exact h.throws hwaiting hended htransform
      · rw [houtputs]
        exact h.adds hwaiting hended hthrown hadds htransform
  | timer =>
      obtain ⟨hwaiting, hgaveUp, rfl⟩ := flowStep_timer hstep
      exact h.tryResume hwaiting hgaveUp

theorem flowInv_initial
    (answers : List Bool) :
    FlowInv options { stream := { answers := answers } } where
  stream := rfl
  logged := rfl
  next := fun _ => rfl
  first := fun a b heq => by simp at heq
  resumed := fun _ _ a b heq => by simp at heq
  counted := fun _ => rfl
  probes := List.nil_suffix
  gaveUp := nofun
  destroyed := rfl
  ended := nofun

/-! ## Exactness -/

/-- Only rows have been enqueued, and no set has thrown. -/
structure Flawless
    (f : Flow ρ) : Prop where
  rows : none ∉ f.stream.pushed
  thrown : f.stream.thrown = false

theorem flowStep_flawless
    {e : FlowEvent}
    (h : Flawless f)
    (hunprobed : Unprobed options f e)
    (hstep : flowStep options f e = some g) :
    Flawless g := by
  cases e with
  | chunk chunk =>
      obtain ⟨-, -, hthrown, rfl⟩ := flowStep_chunk hstep
      rcases transform_cases options f.stream chunk with
        ⟨hnot, -⟩ | ⟨-, t, res, outputs, hadds, htransform, -⟩
      · exact absurd hunprobed hnot
      · have hcontrol := hadds.control
        simp only [PartialResultStream.control, Prod.mk.injEq] at hcontrol
        have hpushed : none ∉ t.pushed := by
          rw [hadds.pushed, List.mem_append, not_or]
          exact ⟨h.rows, hadds.rows⟩
        have hthrown' : t.thrown = false := hcontrol.2.2.1.trans hthrown
        constructor
        · rw [htransform]
          split <;> exact hpushed
        · rw [htransform]
          split <;> exact hthrown'
  | timer =>
      exact hunprobed.elim

/-- A try to resume enqueues what is no row, and a set that cannot be decoded is
the end without an end. -/
theorem flowStep_not_transparent
    {e : FlowEvent}
    (h : FlowInv options f)
    (hprobed : ¬Unprobed options f e)
    (hstep : flowStep options f e = some g) :
    ¬Transparent options g := by
  intro htransparent
  cases e with
  | chunk chunk =>
      obtain ⟨hwaiting, hended, -, rfl⟩ := flowStep_chunk hstep
      rcases transform_cases options f.stream chunk with
        ⟨-, htransform, -⟩ | ⟨hdecodes, -⟩
      · have hgoesOn := htransparent.goesOn
        have hdestroyed : f.stream.destroyed = false := by
          rw [h.destroyed, Bool.eq_false_iff]
          intro hgaveUp
          exact absurd (hwaiting.symm.trans (h.gaveUp hgaveUp).1)
            Bool.false_ne_true
        rw [htransform] at hgoesOn
        rcases hgoesOn with hready | ⟨hended', -⟩ | htimer | hdestroyed'
        · have hchunk := hready chunk
          simp [flowStep] at hchunk
        · exact absurd (hended.symm.trans hended') Bool.false_ne_true
        · simp [flowStep, hwaiting] at htimer
        · exact absurd (hdestroyed.symm.trans hdestroyed') Bool.false_ne_true
      · exact hprobed hdecodes
  | timer =>
      obtain ⟨-, -, rfl⟩ := flowStep_timer hstep
      have hmem :
          none ∈
            (f.log ++ tryResumeOutputs f.stream).filterMap
              Output.enqueued := by
        rw [List.filterMap_append, List.mem_append]
        exact Or.inr List.mem_cons_self
      rw [htransparent.rows] at hmem
      obtain ⟨x, -, hx⟩ := List.mem_map.mp hmem
      cases hx

/-- The stream is transparent for all readers, along a run, exactly as long as it
does not try to resume and the sets can be decoded. -/
theorem transparent_iff_unprobed
    (options : RowOptions δ ρ) (answers : List Bool)
    (es : List FlowEvent) (g : Flow ρ)
    (hrun :
      run (flowStep options) { stream := { answers := answers } } es =
        some g) :
    Always (flowStep options) (Transparent options)
        { stream := { answers := answers } } es ↔
      Meets (flowStep options) (Unprobed options)
        { stream := { answers := answers } } es := by
  refine
    always_iff_meets_of_stronger (I := FlowInv options) (J := Flawless)
      (fun _ _ _ h hstep => flowStep_inv h hstep)
      (fun _ _ _ _ h hunprobed hstep => flowStep_flawless h hunprobed hstep)
      (fun _ _ _ h _ hprobed hstep =>
        flowStep_not_transparent h hprobed hstep)
      (fun _ h hflawless => h.transparent hflawless.rows hflawless.thrown)
      (flowInv_initial answers) ⟨nofun, rfl⟩ hrun

/-- One column. -/
def nameField : List Field :=
  [⟨"name", .scalar "STRING"⟩]

/-- Two rows in three sets; a reader that pushes back at the second row does so
at the end. -/
def nameSets : List FlowEvent :=
  [.chunk { metadata := some nameField, values := [.string "Ada"] },
    .chunk { values := [.string "Gra"], chunkedValue := true },
    .chunk { values := [.string "ce"], last := true }]

theorem transparent_iff_unprobed_nameSets :
    ∃ g, run (flowStep plainRows) { stream := { answers := [true, false] } }
          nameSets = some g ∧
        g.stream.ended = true ∧
        (Always (flowStep plainRows) (Transparent plainRows)
            { stream := { answers := [true, false] } } nameSets ↔
          Meets (flowStep plainRows) (Unprobed plainRows)
            { stream := { answers := [true, false] } } nameSets) := by
  obtain ⟨g, hrun, hended⟩ :
      ∃ g, run (flowStep plainRows) { stream := { answers := [true, false] } }
            nameSets = some g ∧
          g.stream.ended = true :=
    ⟨_, rfl, rfl⟩
  exact
    ⟨g, hrun, hended,
      transparent_iff_unprobed plainRows [true, false] nameSets g hrun⟩

/-- The reader pushes back after the first row, and is ready when the timer
fires. -/
def pausedOnce : List FlowEvent :=
  [.chunk { metadata := some nameField, values := [.string "Ada"] }, .timer]

/-- The try to resume has enqueued `undefined`. -/
theorem pausedOnce_not_transparent :
    ¬∀ (options : RowOptions Value (List (String × Value)))
        (answers : List Bool) (es : List FlowEvent)
        (g : Flow (List (String × Value))),
        run (flowStep options) { stream := { answers := answers } } es =
            some g →
          Always (flowStep options) (Transparent options)
            { stream := { answers := answers } } es := by
  intro h
  have htransparent :=
    h plainRows [false, true] pausedOnce _ rfl pausedOnce
      (List.prefix_refl _) _ rfl
  have hmem : none ∈ [some [("name", Value.string "Ada")], none] :=
    List.mem_cons_of_mem _ List.mem_cons_self
  have hrows :
      [some [("name", Value.string "Ada")], none] =
        [some [("name", Value.string "Ada")]] :=
    htransparent.rows
  rw [hrows] at hmem
  simp at hmem

end ResultStream
end SpannerClient
