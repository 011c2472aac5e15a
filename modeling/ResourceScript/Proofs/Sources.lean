import ResourceScript.Proofs.Scans
import ResourceScript.Proofs.Scripts

namespace ResourceScript

variable {settings : Settings} {r : Registry} {t : TypeTemplate} {source : String}
  {path : Option String} {tokens ts us : List Token} {c c' : Cursor} {resources : List Resource}
  {R : Position → Position → Prop}

namespace Cursor

theorem Alike.of_stream (h : List.Forall₂ (Token.Alike R) c.stream c'.stream) : c.Alike R c' := by
  have hlength : c.rest.length = c'.rest.length := by
    have := h.length_eq
    simp only [stream, List.length_append, List.length_singleton] at this
    omega
  constructor
  · have hrest := List.forall₂_take c.rest.length h
    rw [stream, List.take_left] at hrest
    rwa [hlength, stream, List.take_left] at hrest
  · have hlast := List.forall₂_drop c.rest.length h
    rw [stream, List.drop_left] at hlast
    rw [hlength, stream, List.drop_left] at hlast
    cases hlast with
    | cons h _ => exact h

theorem ofSource_of_tokenize (h : tokenize source path = .ok tokens) :
    ∃ c, ofSource source path = .ok c ∧ c.stream = tokens := by
  obtain ⟨c, hc⟩ := ofTokens_tokenize h
  have hm : (ofTokens tokens).mapError Failure.fault = .ok c := Except.mapError_eq_ok.mpr hc
  exact ⟨c, Except.bind_eq_ok.mpr ⟨tokens, h, hm⟩, stream_of_ofTokens hc⟩

theorem stream_ne_nil (c : Cursor) : c.stream ≠ [] := by
  simp [stream]

theorem exists_moves (h : c.stream = ts ++ us) (hus : us ≠ []) :
    ∃ c', c.Moves ts c' ∧ c'.stream = us := by
  have hrest : c.rest = ts ++ us.dropLast := by
    rw [← dropLast_stream, h, List.dropLast_append_of_ne_nil hus]
  have hmoves := moves_advance hrest
  refine ⟨_, hmoves, ?_⟩
  rw [hmoves.stream] at h
  exact List.append_cancel_left h

end Cursor

theorem compile_of_readAll {s : Session} (hc : Cursor.ofSource source path = .ok c)
    (h : Declaration.readAll settings { cursor := c, registry := r } = .ok resources s) :
    (compile settings r source path).result = .ok resources := by
  simp only [compile, hc, h]

theorem script_of_compile (ht : r.active? = some t)
    (h : (compile settings r source path).result = .ok resources) :
    ∃ ts, tokenize source path =
        .ok (ts ++ [.endOfInput ((Position.start path).after source.toList)]) ∧
      Scans [] (.start path) source.toList ts ∧
      Grammar.Script settings t (r.idsOf t.name) ts resources ∧
      (compile settings r source path).registry = r.withResources t.name resources := by
  obtain ⟨c, s, hc, hread, hregistry⟩ := readAll_of_compile h
  obtain ⟨tokens, htokens, hof⟩ := ofSource_eq_ok hc
  have hstream := Cursor.stream_of_ofTokens hof
  obtain ⟨ts, hscans, rfl⟩ := scans_of_tokenizeFrom htokens
  have hrest : c.rest = ts := by
    rw [← Cursor.dropLast_stream, hstream, List.dropLast_concat]
  have hready : Declaration.Ready { cursor := c, registry := r } t c.stream :=
    ⟨ht, List.suffix_refl _⟩
  obtain ⟨us, hmoves, hk, hscript, hclaims⟩ := (Declaration.ends_readAll hready).of_ok hread
  have hend : ∀ token ∈ c.rest, token.kind ≠ .endOfInput := by
    intro token hmem
    rw [hrest] at hmem
    exact hscans.kind_ne_endOfInput hmem
  have hus : us = ts := (hmoves.eq_rest hend hk).trans hrest
  rw [hus] at hscript
  exact ⟨ts, htokens, hscans, hscript, hregistry.trans hclaims⟩

end ResourceScript
