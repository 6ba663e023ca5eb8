import Mathlib
import Workflow.Proofs.Codec.Rendering
import Workflow.Proofs.Template.Places

/-!
# A marker among other text

A marker is found wherever it stands, and it changes nothing about the text around it: no brace or
number sign there joins with it.  So a text with a marker in it is shown as its parts are, one after
the other, and its errors are those of the parts (`decode_append_wrap`).
-/

namespace Workflow
namespace Codec

/-- The reported one of several errors is the reported one of those that are reported for parts of
them. -/
theorem ErrorPolicy.choose_flatten {α : Type} (policy : ErrorPolicy) (parts : List (List α)) :
    policy.choose parts.flatten = policy.choose ((parts.map policy.choose).filterMap id) := by
  induction parts with
  | nil => rfl
  | cons errors rest ih =>
      rw [List.flatten_cons, List.map_cons]
      cases policy with
      | lastWins =>
          simp only [choose] at ih ⊢
          rw [List.getLast?_append, ih]
          cases errors.getLast? with
          | none => simp
          | some error => simp [List.getLast?_cons]
      | firstWins =>
          simp only [choose] at ih ⊢
          rw [List.head?_append, ih]
          cases errors.head? with
          | none => simp
          | some error => simp

theorem errors_append_wrap (index : NodeIndex) (node : Node) (check : Bool) {token : String}
    (h : Template.IsToken token.toList) (before after : String) :
    errors index node check (before ++ Template.wrap token ++ after) =
      [errors index node check before, errors index node check (Template.wrap token),
        errors index node check after].flatten := by
  rw [errors, Template.tokens_append_wrap h, List.filterMap_append, ← List.singleton_append,
    List.filterMap_append, ← Template.tokens_wrap h]
  simp [errors]

theorem render_append_wrap (classes : String → String) (labels : LabelTable) {token : String}
    (h : Template.IsToken token.toList) (before after : String) :
    render classes labels (before ++ Template.wrap token ++ after) =
      render classes labels before ++ render classes labels (Template.wrap token) ++
        render classes labels after := by
  simp [render, Template.scan_append_marker h, Template.scan_marker h]

/-- The marker of a token is shown as its badge. -/
theorem render_wrap (classes : String → String) (labels : LabelTable) {token : String}
    (h : Template.IsToken token.toList) :
    render classes labels (Template.wrap token) = badge (classes token) (labelOf labels token) := by
  simp [render, Template.scan_marker h, renderPiece]

/-- **A marker among other text.**  The markers of a text are those that stand in it, in order.  A
marker is found between any two texts, whose own markers are found as if they stood alone.  What is
shown is what the three parts are shown as, with all their errors, and the reported error is one of
those that are reported for the parts. -/
theorem decode_append_wrap (settings : Settings) (nodes : List Node) (node : Node) (check : Bool)
    (before after : String) {token : String} (h : Template.IsToken token.toList) :
    let text := before ++ Template.wrap token ++ after
    let shown := decode settings nodes node check
    let alone := shown (Template.wrap token)
    let label := (node.labels.get? token).getD token
    let isBroken := check && (validate? nodes node.id token (some label)).isSome
    (∀ text, Template.tokens text = (Template.places text).map Prod.snd ∧
      (Template.places text).Pairwise (fun a b => a.1 < b.1) ∧
      ∀ place token, (place, token) ∈ Template.places text ↔ Template.MarkerAt text place token) ∧
    Template.tokens text = Template.tokens before ++ [token] ++ Template.tokens after ∧
    alone.text = String.ofList
      (badge (if isBroken then settings.errorClass else settings.referenceClass) label) ∧
    (shown text).text = (shown before).text ++ alone.text ++ (shown after).text ∧
    (shown text).broken = (shown before).broken + alone.broken + (shown after).broken ∧
    (shown text).error? = settings.errorPolicy.choose
      ([(shown before).error?, alone.error?, (shown after).error?].filterMap id) := by
  intro text shown alone label isBroken
  have hclass : classOf settings (.ofNodes nodes) node check token =
      if isBroken then settings.errorClass else settings.referenceClass := by
    cases check with
    | true => rfl
    | false => rfl
  refine ⟨fun text => ⟨(Template.map_places text).symm, Template.pairwise_places text,
    fun _ _ => Template.mem_places_iff⟩, ?_, ?_, ?_, ?_, ?_⟩
  · rw [Template.tokens_append_wrap h, List.append_assoc]
    rfl
  · simp only [alone, shown, decode_eq, render_wrap _ _ h, hclass]
    rfl
  · simp only [alone, shown, text, decode_eq, render_append_wrap _ _ h, String.ofList_append]
  · simp only [alone, shown, text, decode_eq, errors_append_wrap _ _ _ h]
    simp [Nat.add_assoc]
  · simp only [alone, shown, text, decode_eq, errors_append_wrap _ _ _ h,
      ErrorPolicy.choose_flatten]
    rfl

/-- Braces of a marker that is not finished do not join with the marker behind them. -/
theorem decode_append_wrap_unfinished :
    let node : Node := { id := "n", name := "", kind := "", groups := [], labels := .empty }
    let text := "\x7b\x7b#a#" ++ Template.wrap "b.y" ++ "#\x7d\x7d"
    Template.IsToken "b.y".toList ∧ Template.tokens text = ["b.y"] ∧
      (decode .standard [node] node true text).broken = 1 := by
  intro node text
  have htoken : Template.IsToken "b.y".toList :=
    ⟨by decide, List.all_eq_true.mp (by decide)⟩
  obtain ⟨_, htokens, _, _, hbroken, _⟩ :=
    decode_append_wrap .standard [node] node true "\x7b\x7b#a#" "#\x7d\x7d" htoken
  refine ⟨htoken, ?_, ?_⟩
  · rw [htokens]
    cbv
  · rw [hbroken]
    cbv

end Codec
end Workflow
