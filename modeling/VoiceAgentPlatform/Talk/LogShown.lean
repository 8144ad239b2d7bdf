import Mathlib.Data.List.DropRight
import VoiceAgentPlatform.Talk.LogRows

/-!
# What the merged log shows

The rows of the log against the utterances and the replies of a call.

* `Heard.next`: what was said, from the events; `WellFormed`: the sequences in which replies do not overlap
  and nothing is left open.
* `EachOnce`: each utterance and each reply is one row, and a reply grows with its events.
* `Shows`: the invariant of undisturbed events; `StuckRows`: what the others end in.
* `eachOnce_iff`: which sequences are shown so.
-/

namespace Talk

open Rollup

variable {V : Type}

/-! ### What was said -/

/-- How far the current reply has come: `acc` is the text so far, `value` that of its first event, and `t`
the time of its last. -/
inductive Reply (V : Type) where
  | idle
  | started
  | streaming (acc : String) (value : Option V) (t : Option ℚ)
  deriving DecidableEq

/-- The text of the current reply so far. -/
def Reply.soFar : Reply V → Option String
  | .idle => none
  | .started => some ""
  | .streaming acc _ _ => some acc

/-- What was said. An utterance without a partial text may be shown or not. -/
structure Heard (V : Type) where
  reply : Reply V
  hearing : Bool
  replies : List String
  utterances : List (String × Bool)
  deriving DecidableEq

namespace Heard

def nothing : Heard V := { reply := .idle, hearing := false, replies := [], utterances := [] }

/-- One more event; none if the replies overlap, have no text, or end with another text. -/
def next (h : Heard V) (evt : LogEvent V) : Option (Heard V) :=
  if evt.type = "llm_start" then
    match h.reply with
    | .idle => some { h with reply := .started }
    | _ => none
  else if evt.type = "llm_delta" then
    match h.reply, evt.text with
    | .started, some text => some { h with reply := .streaming text evt.value evt.t }
    | .streaming acc value _, some text => some { h with reply := .streaming (acc ++ text) value evt.t }
    | _, _ => none
  else if evt.type = "llm_end" then
    match h.reply with
    | .streaming acc _ _ =>
      if evt.text = some acc then some { h with reply := .idle, replies := h.replies ++ [acc] } else none
    | _ => none
  else if evt.type = "asr_partial" then some { h with hearing := true }
  else if evt.type = "asr_final" then
    some { h with hearing := false, utterances := h.utterances ++ [(evt.text.getD "", h.hearing)] }
  else some h

/-- What was said, after more events. -/
def further (h : Heard V) : List (LogEvent V) → Option (Heard V)
  | [] => some h
  | evt :: events => (h.next evt).bind fun h' => h'.further events

/-- The event does not come between those of a reply or of an utterance, and is not the text of the reply so
far once more. -/
structure Admits (h : Heard V) (evt : LogEvent V) : Prop where
  inReply : ∀ acc value t, h.reply = .streaming acc value t → evt.IsLlm
  inUtterance : h.hearing = true → evt.IsAsr
  fresh : ∀ acc value t t', h.reply = .streaming acc value (some t) → evt.type = "llm_delta" →
    evt.text = some acc → evt.value = value → evt.t = some t' → |t' - t| < dedupeWindowSec → acc = ""

/-- Every event is admitted after those before it. -/
def Undisturbed (h : Heard V) : List (LogEvent V) → Prop
  | [] => True
  | evt :: events => h.Admits evt ∧ ∀ h', h.next evt = some h' → h'.Undisturbed events

end Heard

namespace Heard

variable {h h' : Heard V} {evt : LogEvent V}

theorem Undisturbed.cons (hadmits : h.Admits evt) (hnext : h.next evt = some h')
    {events : List (LogEvent V)} (hrest : h'.Undisturbed events) : h.Undisturbed (evt :: events) := by
  refine ⟨hadmits, fun h₁ hnext' => ?_⟩
  rw [hnext] at hnext'
  cases hnext'
  exact hrest

/-- Outside of replies and utterances any event is admitted. -/
theorem Admits.quiet (hreply : ∀ acc value t, h.reply ≠ .streaming acc value t)
    (hhearing : h.hearing = false) : h.Admits evt where
  inReply _ _ _ heq := absurd heq (hreply _ _ _)
  inUtterance heq := by
    rw [hhearing] at heq
    cases heq
  fresh _ _ _ _ heq := absurd heq (hreply _ _ _)

/-- Within a reply its own events are, unless one has its text once more. -/
theorem Admits.streaming {acc : String} {value : Option V} {t : Option ℚ}
    (hreply : h.reply = .streaming acc value t) (hhearing : h.hearing = false) (hllm : evt.IsLlm)
    (hfresh : ∀ t₀ t', t = some t₀ → evt.type = "llm_delta" → evt.text = some acc → evt.value = value →
      evt.t = some t' → |t' - t₀| < dedupeWindowSec → acc = "") : h.Admits evt where
  inReply _ _ _ _ := hllm
  inUtterance heq := by
    rw [hhearing] at heq
    cases heq
  fresh acc' value' t₀ t' heq := by
    rw [hreply] at heq
    cases heq
    exact hfresh t₀ t' rfl

end Heard

/-- Replies do not overlap, and neither a reply nor an utterance is left open. -/
def WellFormed (events : List (LogEvent V)) : Prop :=
  ∃ h, Heard.nothing.further events = some h ∧ h.reply = .idle ∧ h.hearing = false

/-- The texts of the rows of replies. -/
def llmTexts (rows : List (LogRow V)) : List String :=
  (rows.filter LogRow.isLlm).map fun row => row.event.text.getD ""

/-- The texts of the rows of utterances. -/
def asrTexts (rows : List (LogRow V)) : List String :=
  (rows.filter LogRow.isAsr).map fun row => row.event.text.getD ""

/-- The texts of the rows of the current reply: those behind the last `llm_start`. -/
def replyTexts (rows : List (LogRow V)) : List String :=
  llmTexts (rows.rtakeWhile fun row => row.event.type ≠ "llm_start")

/-- No row is in flight. -/
def AtRest (rows : List (LogRow V)) : Prop :=
  ∀ row ∈ rows, row.asrInFlight = false ∧ row.llmInFlight = false

/-- The rows of utterances are those that were heard, up to some without a partial text. -/
def ShowsUtterances (utterances : List (String × Bool)) (rows : List (LogRow V)) : Prop :=
  ∃ those : List (String × Bool), those.Sublist utterances ∧
    those.filter Prod.snd = utterances.filter Prod.snd ∧ asrTexts rows = those.map Prod.fst

/-- Each utterance and each reply is one row, the reply grows with its events, and the events stay as they
are. -/
structure EachOnce [DecidableEq V] (events : List (LogEvent V)) : Prop where
  atRest : AtRest (Log.after events events.length).shown
  replies : ∀ h, Heard.nothing.further events = some h →
    llmTexts (Log.after events events.length).shown = h.replies
  utterances : ∀ h, Heard.nothing.further events = some h →
    ShowsUtterances h.utterances (Log.after events events.length).shown
  growing : ∀ k ≤ events.length, ∀ h acc, Heard.nothing.further (events.take k) = some h →
    h.reply.soFar = some acc → String.join (replyTexts (Log.after events k).shown) = acc
  untouched : (Log.after events events.length).objects.take events.length = events.map plainRow

/-! ### What an event does -/

/-- The events that are heard. -/
inductive Heard.Next (h : Heard V) (evt : LogEvent V) : Heard V → Prop where
  | start (htype : evt.type = "llm_start") (hreply : h.reply = .idle) :
    Heard.Next h evt { h with reply := .started }
  | first (text : String) (htype : evt.type = "llm_delta") (hreply : h.reply = .started)
    (htext : evt.text = some text) : Heard.Next h evt { h with reply := .streaming text evt.value evt.t }
  | more (acc : String) (value : Option V) (t : Option ℚ) (text : String) (htype : evt.type = "llm_delta")
    (hreply : h.reply = .streaming acc value t) (htext : evt.text = some text) :
    Heard.Next h evt { h with reply := .streaming (acc ++ text) value evt.t }
  | close (acc : String) (value : Option V) (t : Option ℚ) (htype : evt.type = "llm_end")
    (hreply : h.reply = .streaming acc value t) (htext : evt.text = some acc) :
    Heard.Next h evt { h with reply := .idle, replies := h.replies ++ [acc] }
  | partialText (htype : evt.type = "asr_partial") : Heard.Next h evt { h with hearing := true }
  | final (htype : evt.type = "asr_final") :
    Heard.Next h evt { h with
      hearing := false, utterances := h.utterances ++ [(evt.text.getD "", h.hearing)] }
  | other (hstart : evt.type ≠ "llm_start") (hllm : ¬ evt.IsLlm) (hasr : ¬ evt.IsAsr) : Heard.Next h evt h

theorem Heard.next_cases {h h' : Heard V} {evt : LogEvent V} (hnext : h.next evt = some h') :
    Heard.Next h evt h' := by
  rw [Heard.next] at hnext
  -- The types are tested one after the other, as the definition has them.
  by_cases hstart : evt.type = "llm_start"
  · rw [if_pos hstart] at hnext
    cases hreply : h.reply with
    | idle =>
      rw [hreply] at hnext
      cases hnext
      exact .start hstart hreply
    | started => simp [hreply] at hnext
    | streaming acc value t => simp [hreply] at hnext
  rw [if_neg hstart] at hnext
  by_cases hdelta : evt.type = "llm_delta"
  · rw [if_pos hdelta] at hnext
    cases hreply : h.reply with
    | idle => simp [hreply] at hnext
    | started =>
      cases htext : evt.text with
      | none => simp [hreply, htext] at hnext
      | some text =>
        simp only [hreply, htext] at hnext
        cases hnext
        exact .first text hdelta hreply htext
    | streaming acc value t =>
      cases htext : evt.text with
      | none => simp [hreply, htext] at hnext
      | some text =>
        simp only [hreply, htext] at hnext
        cases hnext
        exact .more acc value t text hdelta hreply htext
  rw [if_neg hdelta] at hnext
  by_cases hend : evt.type = "llm_end"
  · rw [if_pos hend] at hnext
    cases hreply : h.reply with
    | idle => simp [hreply] at hnext
    | started => simp [hreply] at hnext
    | streaming acc value t =>
      simp only [hreply] at hnext
      -- An end is heard only if its text is that of the deltas.
      by_cases htext : evt.text = some acc
      · rw [if_pos htext] at hnext
        cases hnext
        exact .close acc value t hend hreply htext
      · rw [if_neg htext] at hnext
        cases hnext
  rw [if_neg hend] at hnext
  by_cases hunfinished : evt.type = "asr_partial"
  · rw [if_pos hunfinished] at hnext
    cases hnext
    exact .partialText hunfinished
  rw [if_neg hunfinished] at hnext
  by_cases hfinal : evt.type = "asr_final"
  · rw [if_pos hfinal] at hnext
    cases hnext
    exact .final hfinal
  rw [if_neg hfinal] at hnext
  cases hnext
  exact .other hstart (not_or.mpr ⟨hdelta, hend⟩) (not_or.mpr ⟨hunfinished, hfinal⟩)

section Merge

variable [DecidableEq V] {rows front : List (LogRow V)} {row : LogRow V} {evt : LogEvent V}

theorem repeats_concat : Repeats (front ++ [row]) evt ↔ repeatsLast row evt = true := by
  rw [Repeats, List.getLast?_concat, Option.any_some]

theorem not_repeats_of_type (h : ∀ last, rows.getLast? = some last → last.event.type ≠ evt.type) :
    ¬ Repeats rows evt := by
  intro hrepeats
  obtain ⟨last, hlast, hrow⟩ := (Option.any_eq_true _ _).mp hrepeats
  simp only [repeatsLast, Bool.and_eq_true, decide_eq_true_eq] at hrow
  exact h last hlast hrow.1.1.1

theorem mergeEvent_of_repeats (h : Repeats rows evt) : mergeEvent rows evt = rows := by
  rw [mergeEvent_eq, if_pos h]

theorem mergeEvent_asr_push (hfresh : ¬ Repeats rows evt) (hasr : evt.IsAsr)
    (hnone : roll LogRow.asrInFlight LogRow.isAsr (asrUpdate evt) rows.reverse = none) :
    mergeEvent rows evt = rows ++ [asrRow evt] := by
  rw [mergeEvent_eq, if_neg hfresh, if_pos hasr, hnone]

theorem mergeEvent_asr_roll (hfresh : ¬ Repeats (front ++ [row]) evt) (hasr : evt.IsAsr)
    (hflight : row.asrInFlight = true) :
    mergeEvent (front ++ [row]) evt = front ++ [asrUpdate evt row] := by
  rw [mergeEvent_eq, if_neg hfresh, if_pos hasr, List.reverse_concat, roll_cons_of_pos hflight]
  simp

theorem mergeEvent_llm_push (hfresh : ¬ Repeats rows evt) (hllm : evt.IsLlm)
    (hnone : roll LogRow.llmInFlight LogRow.passesLlm (llmUpdate evt) rows.reverse = none) :
    mergeEvent rows evt = rows ++ [llmRow evt] := by
  rw [mergeEvent_eq, if_neg hfresh, if_neg hllm.not_isAsr, if_pos hllm, hnone]

theorem mergeEvent_llm_roll (hfresh : ¬ Repeats (front ++ [row]) evt) (hllm : evt.IsLlm)
    (hflight : row.llmInFlight = true) :
    mergeEvent (front ++ [row]) evt = front ++ [llmUpdate evt row] := by
  rw [mergeEvent_eq, if_neg hfresh, if_neg hllm.not_isAsr, if_pos hllm, List.reverse_concat,
    roll_cons_of_pos hflight]
  simp

theorem mergeEvent_plain (hfresh : ¬ Repeats rows evt) (hasr : ¬ evt.IsAsr) (hllm : ¬ evt.IsLlm) :
    mergeEvent rows evt = rows ++ [plainRow evt] := by
  rw [mergeEvent_eq, if_neg hfresh, if_neg hasr, if_neg hllm]

end Merge

/-! ### Texts -/

theorem llmTexts_concat (rows : List (LogRow V)) (row : LogRow V) :
    llmTexts (rows ++ [row]) =
      llmTexts rows ++ if row.isLlm then [row.event.text.getD ""] else [] := by
  rw [llmTexts, List.filter_append, List.map_append, llmTexts]
  split_ifs with hllm
  · rw [List.filter_cons_of_pos hllm]
    rfl
  · rw [List.filter_cons_of_neg hllm]
    rfl

theorem asrTexts_concat (rows : List (LogRow V)) (row : LogRow V) :
    asrTexts (rows ++ [row]) =
      asrTexts rows ++ if row.isAsr then [row.event.text.getD ""] else [] := by
  rw [asrTexts, List.filter_append, List.map_append, asrTexts]
  split_ifs with hasr
  · rw [List.filter_cons_of_pos hasr]
    rfl
  · rw [List.filter_cons_of_neg hasr]
    rfl

theorem replyTexts_concat {rows : List (LogRow V)} {row : LogRow V}
    (h : row.event.type ≠ "llm_start") :
    replyTexts (rows ++ [row]) =
      replyTexts rows ++ if row.isLlm then [row.event.text.getD ""] else [] := by
  rw [replyTexts, List.rtakeWhile_concat_pos _ _ _ (by simpa using h), llmTexts_concat, replyTexts]

theorem replyTexts_concat_start {rows : List (LogRow V)} {row : LogRow V}
    (h : row.event.type = "llm_start") : replyTexts (rows ++ [row]) = [] := by
  rw [replyTexts, List.rtakeWhile_concat_neg _ _ _ (by simpa using h)]
  rfl

namespace ShowsUtterances

variable {utterances : List (String × Bool)} {rows : List (LogRow V)}

theorem pushOther (h : ShowsUtterances utterances rows) {row : LogRow V} (hrow : row.isAsr = false) :
    ShowsUtterances utterances (rows ++ [row]) := by
  obtain ⟨those, hsub, hfilter, htexts⟩ := h
  refine ⟨those, hsub, hfilter, ?_⟩
  rw [asrTexts_concat, if_neg (by simp [hrow]), List.append_nil, htexts]

theorem push (h : ShowsUtterances utterances rows) {row : LogRow V} (hrow : row.isAsr = true)
    (required : Bool) :
    ShowsUtterances (utterances ++ [(row.event.text.getD "", required)]) (rows ++ [row]) := by
  obtain ⟨those, hsub, hfilter, htexts⟩ := h
  refine ⟨those ++ [(row.event.text.getD "", required)], hsub.append (.refl _), ?_, ?_⟩
  · rw [List.filter_append, List.filter_append, hfilter]
  · rw [asrTexts_concat, if_pos hrow, htexts, List.map_append, List.map_singleton]

theorem skip (h : ShowsUtterances utterances rows) (text : String) :
    ShowsUtterances (utterances ++ [(text, false)]) rows := by
  obtain ⟨those, hsub, hfilter, htexts⟩ := h
  refine ⟨those, hsub.trans (List.sublist_append_left _ _), ?_, htexts⟩
  rw [List.filter_append, hfilter]
  exact (List.append_nil _).symm

end ShowsUtterances

/-! ### What is shown -/

/-- Rows at rest, which show what was said and nothing of the current reply. -/
structure Settled (h : Heard V) (rows : List (LogRow V)) : Prop where
  atRest : AtRest rows
  noPartial : ∀ row ∈ rows, row.event.type ≠ "asr_partial"
  replies : llmTexts rows = h.replies
  utterances : ShowsUtterances h.utterances rows
  behindStart : h.reply ≠ .idle → replyTexts rows = []

/-- The row of the current reply. -/
structure Speaks (row : LogRow V) (acc : String) (value : Option V) (t : Option ℚ) : Prop where
  llmInFlight : row.llmInFlight = true
  asrInFlight : row.asrInFlight = false
  type : row.event.type = "llm_delta"
  text : row.event.text = some acc
  value : row.event.value = value
  t : acc ≠ "" → row.event.t = t

/-- The row of the current utterance. -/
structure Listens (row : LogRow V) : Prop where
  asrInFlight : row.asrInFlight = true
  llmInFlight : row.llmInFlight = false
  type : row.event.type = "asr_partial"

theorem Listens.not_isLlm {row : LogRow V} (hrow : Listens row) : row.isLlm = false := by
  simp [LogRow.isLlm, hrow.type]

/-- The rows show what was said, and at most the last is in flight. -/
inductive Shows (h : Heard V) : List (LogRow V) → Prop where
  | quiet {rows : List (LogRow V)} (hs : Settled h rows)
    (hreply : ∀ acc value t, h.reply ≠ .streaming acc value t) (hhearing : h.hearing = false) : Shows h rows
  | speaking {front : List (LogRow V)} {row : LogRow V} (acc : String) (value : Option V) (t : Option ℚ)
    (hs : Settled h front) (hreply : h.reply = .streaming acc value t) (hhearing : h.hearing = false)
    (hrow : Speaks row acc value t) : Shows h (front ++ [row])
  | listening {front : List (LogRow V)} {row : LogRow V} (hs : Settled h front)
    (hreply : ∀ acc value t, h.reply ≠ .streaming acc value t) (hhearing : h.hearing = true)
    (hrow : Listens row) : Shows h (front ++ [row])

theorem shows_nothing : Shows (V := V) .nothing [] :=
  .quiet
    { atRest := fun _ h => absurd h List.not_mem_nil
      noPartial := fun _ h => absurd h List.not_mem_nil
      replies := rfl
      utterances := ⟨[], .refl _, rfl, rfl⟩
      behindStart := fun _ => rfl }
    (fun _ _ _ h => by cases h) rfl

namespace Settled

variable {h h' : Heard V} {rows : List (LogRow V)} {row : LogRow V}

/-- A row at rest behind settled rows. -/
theorem push (hs : Settled h rows) (hrest : row.asrInFlight = false ∧ row.llmInFlight = false)
    (hunfinished : row.event.type ≠ "asr_partial")
    (hreplies : h'.replies = h.replies ++ if row.isLlm then [row.event.text.getD ""] else [])
    (hutterances : ShowsUtterances h'.utterances (rows ++ [row]))
    (hstart : h'.reply ≠ .idle → replyTexts (rows ++ [row]) = []) : Settled h' (rows ++ [row]) where
  atRest r hr := by
    rcases List.mem_append.mp hr with hr | hr
    · exact hs.atRest r hr
    · exact List.mem_singleton.mp hr ▸ hrest
  noPartial r hr := by
    rcases List.mem_append.mp hr with hr | hr
    · exact hs.noPartial r hr
    · exact List.mem_singleton.mp hr ▸ hunfinished
  replies := by rw [llmTexts_concat, hs.replies, hreplies]
  utterances := hutterances
  behindStart := hstart

/-- Behind the start of a reply its first row is still to come. -/
theorem last_not_isLlm (hs : Settled h rows) (hreply : h.reply ≠ .idle) {last : LogRow V}
    (hlast : rows.getLast? = some last) : last.isLlm = false := by
  obtain ⟨front, rfl⟩ := List.getLast?_eq_some_iff.mp hlast
  have hnil := hs.behindStart hreply
  by_contra hllm
  rw [Bool.not_eq_false] at hllm
  have hstart : last.event.type ≠ "llm_start" := by
    intro heq
    simp [LogRow.isLlm, heq] at hllm
  rw [replyTexts_concat hstart, if_pos hllm] at hnil
  simp at hnil

theorem roll_llm (hs : Settled h rows) (f : LogRow V → LogRow V) :
    roll LogRow.llmInFlight LogRow.passesLlm f rows.reverse = none :=
  roll_eq_none fun row hrow => (hs.atRest row (List.mem_reverse.mp hrow)).2

theorem roll_asr (hs : Settled h rows) (f : LogRow V → LogRow V) :
    roll LogRow.asrInFlight LogRow.isAsr f rows.reverse = none :=
  roll_eq_none fun row hrow => (hs.atRest row (List.mem_reverse.mp hrow)).1

end Settled

section Step

variable [DecidableEq V] {h h' : Heard V} {rows front : List (LogRow V)} {row : LogRow V}
  {evt : LogEvent V}

/-- An event of its own behind settled rows. -/
theorem Settled.mergeEvent_plain (hs : Settled h rows) (hllm : ¬ evt.IsLlm) (hasr : ¬ evt.IsAsr)
    (hreplies : h'.replies = h.replies) (hutterances : h'.utterances = h.utterances)
    (hstart : h'.reply ≠ .idle → evt.type = "llm_start" ∨ h.reply ≠ .idle) :
    Settled h' (mergeEvent rows evt) := by
  have hrow : (plainRow evt).isLlm = false ∧ (plainRow evt).isAsr = false :=
    ⟨Bool.eq_false_iff.mpr (mt LogRow.isLlm_iff.mp hllm),
      Bool.eq_false_iff.mpr (mt LogRow.isAsr_iff.mp hasr)⟩
  by_cases hrepeats : Repeats rows evt
  · rw [mergeEvent_of_repeats hrepeats]
    refine ⟨hs.atRest, hs.noPartial, hs.replies.trans hreplies.symm, hutterances ▸ hs.utterances,
      fun hreply => ?_⟩
    rcases hstart hreply with hstart | hstart
    · -- The event repeats a start.
      obtain ⟨last, hlast, hsame⟩ := (Option.any_eq_true _ _).mp hrepeats
      obtain ⟨front, rfl⟩ := List.getLast?_eq_some_iff.mp hlast
      simp only [repeatsLast, Bool.and_eq_true, decide_eq_true_eq] at hsame
      exact replyTexts_concat_start (hsame.1.1.1.trans hstart)
    · exact hs.behindStart hstart
  · rw [Talk.mergeEvent_plain hrepeats hasr hllm]
    refine hs.push ⟨rfl, rfl⟩ (fun heq => hasr (Or.inl heq)) ?_ ?_ fun hreply => ?_
    · rw [hrow.1, hreplies]
      exact (List.append_nil _).symm
    · rw [hutterances]
      exact hs.utterances.pushOther hrow.2
    · by_cases htype : evt.type = "llm_start"
      · exact replyTexts_concat_start htype
      · rw [replyTexts_concat htype, hs.behindStart ((hstart hreply).resolve_left htype), hrow.1]
        rfl

/-- The first event of a reply begins a row. -/
theorem Settled.mergeEvent_first (hs : Settled h rows) (hreply : h.reply = .started) {text : String}
    (htype : evt.type = "llm_delta") (htext : evt.text = some text) :
    mergeEvent rows evt = rows ++ [llmRow evt] ∧ Speaks (llmRow evt) text evt.value evt.t := by
  have hstarted : h.reply ≠ .idle := by simp [hreply]
  have hfresh : ¬ Repeats rows evt := by
    refine not_repeats_of_type fun last hlast heq => ?_
    have hllm := hs.last_not_isLlm hstarted hlast
    simp [LogRow.isLlm, heq, htype] at hllm
  refine ⟨mergeEvent_llm_push hfresh (Or.inl htype) (hs.roll_llm _), ?_⟩
  exact
    { llmInFlight := by simp [llmRow, htype]
      asrInFlight := rfl
      type := by simp [llmRow, htype]
      text := htext
      value := rfl
      t := fun _ => rfl }

/-- A further event adds to the row of the reply, unless it is taken for a repetition. -/
theorem Speaks.mergeEvent_more {acc text : String} {value : Option V} {t : Option ℚ}
    (hrow : Speaks row acc value t) (htype : evt.type = "llm_delta") (htext : evt.text = some text)
    (hfresh : ¬ Repeats (front ++ [row]) evt) :
    mergeEvent (front ++ [row]) evt = front ++ [llmUpdate evt row] ∧
      Speaks (llmUpdate evt row) (acc ++ text) value evt.t := by
  refine ⟨mergeEvent_llm_roll hfresh (Or.inl htype) hrow.llmInFlight, ?_⟩
  have hupdate : llmUpdate evt row =
      { row with event := { row.event with text := some (acc ++ text), t := evt.t } } := by
    rw [llmUpdate, if_pos htype, hrow.text, htext]
    rfl
  rw [hupdate]
  exact
    { llmInFlight := hrow.llmInFlight
      asrInFlight := hrow.asrInFlight
      type := hrow.type
      text := rfl
      value := hrow.value
      t := fun _ => rfl }

/-- The row has the text of the event, at nearly its time. -/
theorem Speaks.repeats_iff {acc : String} {value : Option V} {t : Option ℚ} (hrow : Speaks row acc value t)
    (hacc : acc ≠ "") : Repeats (front ++ [row]) evt ↔
      evt.type = "llm_delta" ∧ evt.value = value ∧ evt.text = some acc ∧
        ∃ t₀ t', t = some t₀ ∧ evt.t = some t' ∧ |t' - t₀| < dedupeWindowSec := by
  rw [repeats_concat, repeatsLast, hrow.type, hrow.value, hrow.text, hrow.t hacc]
  cases t with
  | none => simp
  | some t₀ =>
    cases evt.t with
    | none => simp
    | some t' =>
      simp only [Bool.and_eq_true, decide_eq_true_eq]
      constructor
      · rintro ⟨⟨⟨htype, hvalue⟩, htext⟩, hnear⟩
        exact ⟨htype.symm, hvalue.symm, htext.symm, t₀, t', rfl, rfl, hnear⟩
      · rintro ⟨htype, hvalue, htext, _, _, heq, heq', hnear⟩
        cases heq
        cases heq'
        exact ⟨⟨⟨htype.symm, hvalue.symm⟩, htext.symm⟩, hnear⟩

/-- The end of a reply closes its row. -/
theorem Speaks.mergeEvent_close {acc : String} {value : Option V} {t : Option ℚ}
    (hrow : Speaks row acc value t) (front : List (LogRow V)) (htype : evt.type = "llm_end") (htext : evt.text = some acc) :
    mergeEvent (front ++ [row]) evt = front ++ [llmUpdate evt row] ∧
      llmUpdate evt row = { row with
        event := { row.event with type := "llm_end", text := some acc, t := evt.t }
        llmInFlight := false } := by
  have hfresh : ¬ Repeats (front ++ [row]) evt := by
    refine not_repeats_of_type fun last hlast => ?_
    rw [List.getLast?_concat, Option.some.injEq] at hlast
    rw [← hlast, hrow.type, htype]
    decide
  refine ⟨mergeEvent_llm_roll hfresh (Or.inr htype) hrow.llmInFlight, ?_⟩
  rw [llmUpdate, if_neg (by simp [htype]), hrow.text, htext]
  simp

/-- An event of an utterance updates its row. -/
theorem Listens.mergeEvent_asr (hrow : Listens row) (hasr : evt.IsAsr)
    (hfresh : ¬ Repeats (front ++ [row]) evt) :
    mergeEvent (front ++ [row]) evt = front ++ [asrUpdate evt row] :=
  mergeEvent_asr_roll hfresh hasr hrow.asrInFlight

/-- An event that is admitted keeps the rows showing what was said. -/
theorem Shows.next (hshows : Shows h rows) (hadmits : h.Admits evt) (hnext : h.next evt = some h') :
    Shows h' (mergeEvent rows evt) := by
  cases Heard.next_cases hnext with
  | start htype hreply =>
    have hllm : ¬ evt.IsLlm := by rintro (heq | heq) <;> simp [htype] at heq
    have hasr : ¬ evt.IsAsr := by rintro (heq | heq) <;> simp [htype] at heq
    cases hshows with
    | quiet hs _ hhearing =>
      exact .quiet (hs.mergeEvent_plain hllm hasr rfl rfl fun _ => Or.inl htype)
        (fun _ _ _ heq => by cases heq) hhearing
    | speaking acc value t hs hreply' =>
      rw [hreply] at hreply'
      cases hreply'
    | listening hs _ hhearing => exact absurd (hadmits.inUtterance hhearing) hasr
  | first text htype hreply htext =>
    have hllm : evt.IsLlm := Or.inl htype
    cases hshows with
    | quiet hs _ hhearing =>
      obtain ⟨hmerge, hspeaks⟩ := hs.mergeEvent_first hreply htype htext
      rw [hmerge]
      refine .speaking text evt.value evt.t ?_ rfl hhearing hspeaks
      exact ⟨hs.atRest, hs.noPartial, hs.replies, hs.utterances, fun _ => hs.behindStart (by simp [hreply])⟩
    | speaking acc value t hs hreply' =>
      rw [hreply] at hreply'
      cases hreply'
    | listening hs _ hhearing => exact absurd (hadmits.inUtterance hhearing) hllm.not_isAsr
  | more acc value t text htype hreply htext =>
    have hllm : evt.IsLlm := Or.inl htype
    cases hshows with
    | quiet hs hreply' => exact absurd hreply (hreply' _ _ _)
    | @speaking front row acc' value' t' hs hreply' hhearing hrow =>
      rw [hreply] at hreply'
      cases hreply'
      have hs' : Settled { h with reply := .streaming (acc ++ text) value evt.t } front :=
        ⟨hs.atRest, hs.noPartial, hs.replies, hs.utterances, fun _ => hs.behindStart (by simp [hreply])⟩
      by_cases hrepeats : Repeats (front ++ [row]) evt
      · -- Only an empty text may be taken for a repetition.
        have hacc : acc = "" := by
          by_contra hne
          obtain ⟨-, hvalue, htext', t₀, t', rfl, ht', hnear⟩ := (hrow.repeats_iff hne).mp hrepeats
          exact hne (hadmits.fresh acc value t₀ t' hreply htype htext' hvalue ht' hnear)
        have hsame : acc ++ text = acc := by
          have hrepeats' := repeats_concat.mp hrepeats
          simp only [repeatsLast, Bool.and_eq_true, decide_eq_true_eq, hrow.text, htext,
            Option.some.injEq] at hrepeats'
          rw [← hrepeats'.1.2, hacc, String.append_empty]
        rw [mergeEvent_of_repeats hrepeats]
        exact .speaking _ _ _ hs' rfl hhearing
          { hrow with
            text := hrow.text.trans (congrArg some hsame.symm)
            t := fun hne => absurd (hsame.trans hacc) hne }
      · obtain ⟨hmerge, hspeaks⟩ := hrow.mergeEvent_more htype htext hrepeats
        rw [hmerge]
        exact .speaking _ _ _ hs' rfl hhearing hspeaks
    | listening hs hreply' => exact absurd hreply (hreply' _ _ _)
  | close acc value t htype hreply htext =>
    cases hshows with
    | quiet hs hreply' => exact absurd hreply (hreply' _ _ _)
    | @speaking front row acc' value' t' hs hreply' hhearing hrow =>
      rw [hreply] at hreply'
      cases hreply'
      obtain ⟨hmerge, hupdate⟩ := hrow.mergeEvent_close front htype htext
      rw [hmerge, hupdate]
      refine .quiet (hs.push ⟨hrow.asrInFlight, rfl⟩ (by simp) ?_ ?_ fun hne => absurd rfl hne)
        (fun _ _ _ heq => by cases heq) hhearing
      · simp [LogRow.isLlm]
      · exact hs.utterances.pushOther (by simp [LogRow.isAsr])
    | listening hs hreply' => exact absurd hreply (hreply' _ _ _)
  | partialText htype =>
    have hasr : evt.IsAsr := Or.inl htype
    cases hshows with
    | quiet hs hreply hhearing =>
      have hfresh : ¬ Repeats rows evt := not_repeats_of_type fun last hlast => by
        rw [htype]
        exact hs.noPartial last (List.mem_of_getLast? hlast)
      rw [mergeEvent_asr_push hfresh hasr (hs.roll_asr _)]
      exact .listening ⟨hs.atRest, hs.noPartial, hs.replies, hs.utterances, hs.behindStart⟩ hreply rfl
        { asrInFlight := by simp [asrRow, htype]
          llmInFlight := rfl
          type := htype }
    | speaking acc value t hs hreply => exact absurd hasr (hadmits.inReply _ _ _ hreply).not_isAsr
    | @listening front row hs hreply hhearing hrow =>
      have hs' : Settled { h with hearing := true } front :=
        ⟨hs.atRest, hs.noPartial, hs.replies, hs.utterances, hs.behindStart⟩
      by_cases hrepeats : Repeats (front ++ [row]) evt
      · rw [mergeEvent_of_repeats hrepeats]
        exact .listening hs' hreply rfl hrow
      · rw [hrow.mergeEvent_asr hasr hrepeats]
        exact .listening hs' hreply rfl
          { asrInFlight := by simp [asrUpdate, htype]
            llmInFlight := hrow.llmInFlight
            type := by simp [asrUpdate, htype] }
  | final htype =>
    have hasr : evt.IsAsr := Or.inr htype
    cases hshows with
    | quiet hs hreply hhearing =>
      rw [hhearing]
      by_cases hrepeats : Repeats rows evt
      · rw [mergeEvent_of_repeats hrepeats]
        exact .quiet ⟨hs.atRest, hs.noPartial, hs.replies, hs.utterances.skip _, hs.behindStart⟩ hreply rfl
      · rw [mergeEvent_asr_push hrepeats hasr (hs.roll_asr _)]
        have hrow : (asrRow evt).isAsr = true := LogRow.isAsr_iff.mpr hasr
        have hllm : (asrRow evt).isLlm = false :=
          Bool.eq_false_iff.mpr fun hllm => LogEvent.IsLlm.not_isAsr (LogRow.isLlm_iff.mp hllm) hasr
        refine .quiet (hs.push ⟨by simp [asrRow, htype], rfl⟩ (by simp [asrRow, htype]) ?_
          (hs.utterances.push hrow false) fun hne => ?_) hreply rfl
        · rw [hllm]
          exact (List.append_nil _).symm
        · rw [replyTexts_concat (by simp [asrRow, htype]), hs.behindStart hne, hllm]
          rfl
    | speaking acc value t hs hreply => exact absurd hasr (hadmits.inReply _ _ _ hreply).not_isAsr
    | @listening front row hs hreply hhearing hrow =>
      have hfresh : ¬ Repeats (front ++ [row]) evt := by
        refine not_repeats_of_type fun last hlast => ?_
        rw [List.getLast?_concat, Option.some.injEq] at hlast
        rw [← hlast, hrow.type, htype]
        decide
      have htype' : (asrUpdate evt row).event.type = "asr_final" := by simp [asrUpdate, htype]
      have hllm : (asrUpdate evt row).isLlm = false := by simp [LogRow.isLlm, htype']
      rw [hrow.mergeEvent_asr hasr hfresh, hhearing]
      refine .quiet (hs.push ⟨by simp [asrUpdate, htype], hrow.llmInFlight⟩ (by simp [htype']) ?_
        (hs.utterances.push (LogRow.isAsr_iff.mpr (Or.inr htype')) true) fun hne => ?_) hreply rfl
      · rw [hllm]
        exact (List.append_nil _).symm
      · rw [replyTexts_concat (by simp [htype']), hs.behindStart hne, hllm]
        rfl
  | other hstart hllm hasr =>
    cases hshows with
    | quiet hs hreply hhearing =>
      exact .quiet (hs.mergeEvent_plain hllm hasr rfl rfl fun hne => Or.inr hne) hreply hhearing
    | speaking acc value t hs hreply => exact absurd (hadmits.inReply _ _ _ hreply) hllm
    | listening hs _ hhearing => exact absurd (hadmits.inUtterance hhearing) hasr

/-! ### What breaks it -/

/-- A row in flight is behind one that no search passes. -/
def StuckRows (rows : List (LogRow V)) : Prop :=
  Stuck LogRow.asrInFlight LogRow.isAsr rows.reverse ∨
    Stuck LogRow.llmInFlight LogRow.passesLlm rows.reverse

omit [DecidableEq V] in
theorem llmInFlight_asrUpdate (evt : LogEvent V) (row : LogRow V) :
    (asrUpdate evt row).llmInFlight = row.llmInFlight := rfl

omit [DecidableEq V] in
theorem passesLlm_asrUpdate (evt : LogEvent V) (row : LogRow V) :
    (asrUpdate evt row).passesLlm = false := by
  simp only [LogRow.passesLlm, LogRow.isLlm, asrUpdate]
  split_ifs <;> rfl

omit [DecidableEq V] in
theorem asrInFlight_llmUpdate (evt : LogEvent V) (row : LogRow V) :
    (llmUpdate evt row).asrInFlight = row.asrInFlight := by
  rw [llmUpdate]
  split_ifs <;> rfl

omit [DecidableEq V] in
theorem isAsr_llmUpdate (evt : LogEvent V) {row : LogRow V} (h : row.isAsr = false) :
    (llmUpdate evt row).isAsr = false := by
  by_cases hdelta : evt.type = "llm_delta"
  · rw [llmUpdate, if_pos hdelta]
    exact h
  · rw [llmUpdate, if_neg hdelta]
    rfl

omit [DecidableEq V] in
theorem StuckRows.not_atRest (h : StuckRows rows) : ¬ AtRest rows := by
  intro hrest
  rcases h with h | h
  · obtain ⟨row, hrow, hflight⟩ := h.exists_mem
    rw [(hrest row (List.mem_reverse.mp hrow)).1] at hflight
    cases hflight
  · obtain ⟨row, hrow, hflight⟩ := h.exists_mem
    rw [(hrest row (List.mem_reverse.mp hrow)).2] at hflight
    cases hflight

omit [DecidableEq V] in
theorem StuckRows.push (h : StuckRows rows) (row : LogRow V) : StuckRows (rows ++ [row]) := by
  rw [StuckRows, List.reverse_concat]
  exact h.imp .cons .cons

/-- What is stuck stays stuck. -/
theorem StuckRows.mergeEvent (h : StuckRows rows) (evt : LogEvent V) :
    StuckRows (mergeEvent rows evt) := by
  rw [mergeEvent_eq]
  split_ifs
  · exact h
  · -- A row that is stuck is not found, and no other update frees it.
    cases hroll : roll LogRow.asrInFlight LogRow.isAsr (asrUpdate evt) rows.reverse with
    | none => exact h.push _
    | some rows' =>
      rw [StuckRows, List.reverse_reverse]
      exact h.imp (fun h => h.roll hroll) fun h =>
        h.roll_other (fun row _ => llmInFlight_asrUpdate evt row)
          (fun row _ _ => passesLlm_asrUpdate evt row) hroll
  · cases hroll : roll LogRow.llmInFlight LogRow.passesLlm (llmUpdate evt) rows.reverse with
    | none => exact h.push _
    | some rows' =>
      rw [StuckRows, List.reverse_reverse]
      exact h.imp (fun h => h.roll_other (fun row _ => asrInFlight_llmUpdate evt row)
        (fun row _ => isAsr_llmUpdate evt) hroll) fun h => h.roll hroll
  · exact h.push _

theorem StuckRows.foldl (h : StuckRows rows) (events : List (LogEvent V)) :
    StuckRows (events.foldl Talk.mergeEvent rows) := by
  induction events generalizing rows with
  | nil => exact h
  | cons evt events ih => exact ih (h.mergeEvent evt)

/-- The rows of the current reply do not have its text. -/
def Misgrown (h : Heard V) (rows : List (LogRow V)) : Prop :=
  ∃ acc, h.reply.soFar = some acc ∧ String.join (replyTexts rows) ≠ acc

omit [DecidableEq V] in
/-- While the rows show what was said, the rows of the current reply have its text. -/
theorem Shows.grown (hshows : Shows h rows) {acc : String} (hacc : h.reply.soFar = some acc) :
    String.join (replyTexts rows) = acc := by
  have hreply : h.reply ≠ .idle := by
    intro hidle
    rw [hidle] at hacc
    cases hacc
  cases hshows with
  | quiet hs hreply' =>
    rw [hs.behindStart hreply]
    cases hr : h.reply with
    | idle => exact absurd hr hreply
    | started =>
      rw [hr] at hacc
      cases hacc
      rfl
    | streaming acc value t => exact absurd hr (hreply' _ _ _)
  | speaking acc' value t hs hr hhearing hrow =>
    rw [hr] at hacc
    cases hacc
    have hllm := LogRow.isLlm_iff.mpr (Or.inl hrow.type)
    -- The row in flight is all of the reply so far.
    rw [replyTexts_concat (by simp [hrow.type]), hs.behindStart hreply, if_pos hllm, hrow.text]
    simp [String.join]
  | listening hs hreply' hhearing hrow =>
    rw [replyTexts_concat (by simp [hrow.type]), hs.behindStart hreply, hrow.not_isLlm]
    cases hr : h.reply with
    | idle => exact absurd hr hreply
    | started =>
      rw [hr] at hacc
      cases hacc
      rfl
    | streaming acc value t => exact absurd hr (hreply' _ _ _)

/-- A row of another kind behind the row of a reply in flight. -/
theorem Speaks.stuck {acc : String} {value : Option V} {t : Option ℚ} (hrow : Speaks row acc value t)
    (hllm : ¬ evt.IsLlm) (hstart : evt.type ≠ "llm_start") :
    StuckRows (mergeEvent (front ++ [row]) evt) := by
  have hfresh : ¬ Repeats (front ++ [row]) evt := by
    refine not_repeats_of_type fun last hlast heq => hllm (Or.inl ?_)
    rw [List.getLast?_concat, Option.some.injEq] at hlast
    rw [← heq, ← hlast, hrow.type]
  have hpasses : ∀ row' : LogRow V, row'.event.type = evt.type → row'.passesLlm = false := by
    intro row' htype
    have hnot : row'.isLlm = false := Bool.eq_false_iff.mpr fun hllm' => by
      rw [LogRow.isLlm_iff, htype] at hllm'
      exact hllm hllm'
    simp [LogRow.passesLlm, hnot, htype, hstart]
  -- A row of another kind keeps the later deltas from the row in flight.
  have hbehind : ∀ row' : LogRow V, row'.event.type = evt.type → row'.llmInFlight = false →
      StuckRows (front ++ [row] ++ [row']) := by
    intro row' htype hflight
    refine Or.inr ?_
    rw [List.reverse_concat]
    exact .behind hflight (hpasses row' htype) ⟨row, by simp, hrow.llmInFlight⟩
  by_cases hasr : evt.IsAsr
  · have hblocked : row.isAsr = false := by simp [LogRow.isAsr, hrow.type]
    rw [mergeEvent_asr_push hfresh hasr
      (by rw [List.reverse_concat]; exact roll_cons_of_blocked hrow.asrInFlight hblocked)]
    exact hbehind _ rfl rfl
  · rw [Talk.mergeEvent_plain hfresh hasr hllm]
    exact hbehind _ rfl rfl

/-- A row of another kind behind the row of an utterance in flight. -/
theorem Listens.stuck (hrow : Listens row) (hasr : ¬ evt.IsAsr) :
    StuckRows (mergeEvent (front ++ [row]) evt) := by
  have hfresh : ¬ Repeats (front ++ [row]) evt := by
    refine not_repeats_of_type fun last hlast heq => hasr (Or.inl ?_)
    rw [List.getLast?_concat, Option.some.injEq] at hlast
    rw [← heq, ← hlast, hrow.type]
  -- A row of another kind keeps the later partials from the row in flight.
  have hbehind : ∀ row' : LogRow V, row'.isAsr = false → row'.asrInFlight = false →
      StuckRows (front ++ [row] ++ [row']) := by
    intro row' hasr' hflight
    refine Or.inl ?_
    rw [List.reverse_concat]
    exact .behind hflight hasr' ⟨row, by simp, hrow.asrInFlight⟩
  by_cases hllm : evt.IsLlm
  · have hblocked : row.passesLlm = false := by simp [LogRow.passesLlm, LogRow.isLlm, hrow.type]
    rw [mergeEvent_llm_push hfresh hllm
      (by rw [List.reverse_concat]; exact roll_cons_of_blocked hrow.llmInFlight hblocked)]
    refine hbehind _ ?_ rfl
    simp only [LogRow.isAsr, llmRow]
    split_ifs <;> rfl
  · rw [Talk.mergeEvent_plain hfresh hasr hllm]
    exact hbehind _ (Bool.eq_false_iff.mpr (mt LogRow.isAsr_iff.mp hasr)) rfl

/-- An event that is not admitted leaves a row stuck, or does not get into the text of its reply. -/
theorem Shows.broken (hshows : Shows h rows) (hadmits : ¬ h.Admits evt) (hnext : h.next evt = some h') :
    StuckRows (mergeEvent rows evt) ∨ Misgrown h' (mergeEvent rows evt) := by
  cases hshows with
  | quiet hs hreply hhearing => exact absurd (.quiet hreply hhearing) hadmits
  | @speaking front row acc value t hs hreply hhearing hrow =>
    by_cases hllm : evt.IsLlm
    · refine Or.inr ?_
      -- What is not admitted while a reply streams is what the rows take for a repetition.
      have hrepeats : acc ≠ "" ∧ Repeats (front ++ [row]) evt := by
        by_contra hnot
        refine hadmits (.streaming hreply hhearing hllm fun t₀ t' ht₀ htype htext hvalue ht hnear => ?_)
        by_contra hne
        exact hnot ⟨hne, (hrow.repeats_iff hne).mpr ⟨htype, hvalue, htext, t₀, t', ht₀, ht, hnear⟩⟩
      obtain ⟨hne, hrepeats⟩ := hrepeats
      obtain ⟨htype, -, htext, -⟩ := (hrow.repeats_iff hne).mp hrepeats
      have hsoFar : h'.reply.soFar = some (acc ++ acc) := by
        rw [Heard.next, if_neg (by simp [htype]), if_pos htype, hreply, htext] at hnext
        cases hnext
        rfl
      refine ⟨acc ++ acc, hsoFar, ?_⟩
      have hgrown : String.join (replyTexts (front ++ [row])) = acc :=
        (Shows.speaking acc value t hs hreply hhearing hrow).grown (by rw [hreply]; rfl)
      rw [mergeEvent_of_repeats hrepeats, hgrown]
      intro heq
      -- The text would be its own double.
      have hlength := congrArg String.length heq
      rw [String.length_append] at hlength
      exact hne (String.length_eq_zero_iff.mp (by omega))
    · refine Or.inl (hrow.stuck hllm fun hstart => ?_)
      rw [Heard.next, if_pos hstart, hreply] at hnext
      cases hnext
  | listening hs hreply hhearing hrow =>
    refine Or.inl (hrow.stuck fun hasr => hadmits ?_)
    exact ⟨fun acc value t heq => absurd heq (hreply _ _ _), fun _ => hasr, fun acc value t t' heq =>
      absurd heq (hreply _ _ _)⟩

/-! ### Runs -/

/-- Undisturbed events keep the rows showing what was said. -/
theorem Shows.run {events : List (LogEvent V)} (hshows : Shows h rows) (hevents : h.Undisturbed events)
    (hfurther : h.further events = some h') : Shows h' (events.foldl mergeEvent rows) := by
  induction events generalizing h rows with
  | nil =>
    cases hfurther
    exact hshows
  | cons evt events ih =>
    obtain ⟨h₁, hnext, hrest⟩ := Option.bind_eq_some_iff.mp hfurther
    exact ih (hshows.next hevents.1 hnext) (hevents.2 h₁ hnext) hrest

omit [DecidableEq V] in
theorem Heard.Undisturbed.take {events : List (LogEvent V)} (hevents : h.Undisturbed events) (k : ℕ) :
    h.Undisturbed (events.take k) := by
  induction events generalizing h k with
  | nil => rwa [List.take_nil]
  | cons evt events ih =>
    cases k with
    | zero => exact trivial
    | succ k => exact ⟨hevents.1, fun h₁ hnext => ih (hevents.2 h₁ hnext) k⟩

/-- Of disturbed events a row is left stuck, or a reply does not grow with its events at some point. -/
theorem Shows.run_broken {events : List (LogEvent V)} (hshows : Shows h rows)
    (hevents : ¬ h.Undisturbed events) (hfurther : h.further events = some h') :
    StuckRows (events.foldl mergeEvent rows) ∨ ∃ k ≤ events.length, ∃ h₁,
      h.further (events.take k) = some h₁ ∧ Misgrown h₁ ((events.take k).foldl mergeEvent rows) := by
  induction events generalizing h rows with
  | nil => exact absurd trivial hevents
  | cons evt events ih =>
    obtain ⟨h₁, hnext, hrest⟩ := Option.bind_eq_some_iff.mp hfurther
    -- The first event that is not admitted breaks the rows.
    by_cases hadmits : h.Admits evt
    · have hlater : ¬ h₁.Undisturbed events := fun hlater => hevents (.cons hadmits hnext hlater)
      refine (ih (hshows.next hadmits hnext) hlater hrest).imp id ?_
      rintro ⟨k, hk, h₂, hfurther', hmisgrown⟩
      refine ⟨k + 1, Nat.succ_le_succ hk, h₂, ?_, hmisgrown⟩
      rw [List.take_succ_cons, Heard.further, hnext]
      exact hfurther'
    · rcases hshows.broken hadmits hnext with hstuck | hmisgrown
      · exact Or.inl (hstuck.foldl events)
      · refine Or.inr ⟨1, Nat.succ_le_succ (Nat.zero_le _), h₁, ?_, hmisgrown⟩
        rw [List.take_succ_cons, Heard.further, hnext]
        rfl

end Step

/-- Each utterance and each reply of well-formed events is one row, which grows with them, exactly if no
event comes between those of a reply or of an utterance, and none has the text of its reply so far, at
nearly the time of the one before. -/
theorem eachOnce_iff [DecidableEq V] (events : List (LogEvent V)) (hformed : WellFormed events) :
    EachOnce events ↔ Heard.nothing.Undisturbed events := by
  obtain ⟨h, hfurther, hidle, hsilent⟩ := hformed
  obtain ⟨hapart, hshown⟩ := Log.shown_after events le_rfl
  rw [List.take_length] at hshown
  constructor
  · intro honce
    -- A disturbed run leaves a row open, or shows another text than was heard.
    by_contra hdisturbed
    rcases shows_nothing.run_broken hdisturbed hfurther with hstuck | ⟨k, hk, h₁, hfurther₁, acc, hacc, hne⟩
    · exact hstuck.not_atRest (hshown ▸ honce.atRest)
    · refine hne ?_
      rw [← (Log.shown_after events hk).2]
      exact honce.growing k hk h₁ acc hfurther₁ hacc
  · intro hundisturbed
    have hshows := shows_nothing.run hundisturbed hfurther
    rw [← hshown] at hshows
    generalize hrows : (Log.after events events.length).shown = rows at hshows
    -- At the end of a well-formed run nobody speaks and nothing is listened to.
    cases hshows with
    | quiet hs hreply hhearing =>
      refine ⟨hrows ▸ hs.atRest, fun h₁ hfurther₁ => ?_, fun h₁ hfurther₁ => ?_,
        fun k hk h₁ acc hfurther₁ hacc => ?_, hapart.untouched⟩
      · rw [hfurther] at hfurther₁
        cases hfurther₁
        rw [hrows, hs.replies]
      · rw [hfurther] at hfurther₁
        cases hfurther₁
        rw [hrows]
        exact hs.utterances
      · rw [(Log.shown_after events hk).2]
        exact (shows_nothing.run (hundisturbed.take k) hfurther₁).grown hacc
    | speaking acc value t hs hreply =>
      rw [hidle] at hreply
      cases hreply
    | listening hs hreply hhearing =>
      rw [hsilent] at hhearing
      cases hhearing

/-- An event with a text. -/
def textEvent (type text : String) (t : ℚ) : LogEvent Unit :=
  { type, text := some text, value := none, t := some t, ts := t }

/-- Before a tone a reply of equal parts, a second apart. -/
theorem eachOnce_iff_call : EachOnce [sampleEvent "llm_start" 3, textEvent "llm_delta" "ha" 4,
    textEvent "llm_delta" "ha" 5, textEvent "llm_end" "haha" 5, sampleEvent "tts_start" 6] := by
  refine (eachOnce_iff _ ⟨_, rfl, rfl, rfl⟩).mpr ?_
  refine .cons (.quiet (by simp [Heard.nothing]) rfl) rfl ?_
  refine .cons (.quiet (by simp) rfl) rfl ?_
  refine .cons (.streaming rfl rfl (Or.inl rfl) fun t₀ t' ht _ _ _ ht' hnear => ?_) rfl ?_
  · cases ht
    cases ht'
    exact absurd hnear (by decide +kernel)
  refine .cons (.streaming rfl rfl (Or.inr rfl) fun t₀ t' _ htype => absurd htype (by decide)) rfl ?_
  exact .cons (.quiet (by simp) rfl) rfl trivial

/-- A reply between whose parts speech starts. -/
def interleavedReply : List (LogEvent Unit) :=
  [sampleEvent "llm_start" 1, textEvent "llm_delta" "Good " 2, sampleEvent "bot_speaking" 3,
    textEvent "llm_delta" "day." 4, textEvent "llm_end" "Good day." 5]

/-- The parts of the reply are two rows. -/
theorem interleavedReply_twice : WellFormed interleavedReply ∧ ¬ EachOnce interleavedReply := by
  refine ⟨⟨_, rfl, rfl, rfl⟩, fun h => ?_⟩
  exact absurd (h.replies _ rfl) (by decide +kernel)

end Talk
