import UtilityClass.Gate
import UtilityClass.Ledger

/-!
# Parsers and caches

A parser reads tokens under one configuration and remembers every answer in a cache, rejections
included.  The key of an entry is the token alone.  A failing token leaves no entry.
-/

namespace UtilityClass

/-- What is known of tokens: the candidate of an accepted token, nothing for a rejected one. -/
abbrev Cache := Ledger Text (Option Candidate)

/-- A configuration with the collaborators that judge its tokens. -/
structure Parser (ε : Type) where
  config : Config
  collaborators : Collaborators ε

namespace Parser

variable {ε : Type}

/-- Reads a token without any cache. -/
def parseFresh (p : Parser ε) (raw : Text) : Traced ε (Option Candidate) :=
  Candidate.parse p.collaborators p.config raw

/-- The cache once a token has been read: an answer is entered, a failure is not. -/
def remember (cache : Cache) (raw : Text) (answer : Except ε (Option Candidate)) : Cache :=
  match answer with
  | .ok known => cache.insert raw known
  | .error _ => cache

/-- Reads a token through a cache. -/
def parse (p : Parser ε) (cache : Cache) (raw : Text) : Traced ε (Option Candidate) × Cache :=
  match cache.find? raw with
  | some known => (.done known, cache)
  | none => (p.parseFresh raw, remember cache raw (p.parseFresh raw).answer)

/-- Reads tokens through a cache, after others whose results are known; the first failure ends the
reading. -/
def parseAfter (p : Parser ε) (results : Cache) (cache : Cache) :
    List Text → Traced ε Cache × Cache
  | [] => (.done results, cache)
  | raw :: more =>
    if results.contains raw then p.parseAfter results cache more
    else
      let (first, cache') := p.parse cache raw
      match first.answer with
      | .error e => (⟨first.calls, first.notes, .error e⟩, cache')
      | .ok known =>
        let (others, cache'') := p.parseAfter (results.insert raw known) cache' more
        (⟨first.calls ++ others.calls, first.notes ++ others.notes, others.answer⟩, cache'')

/-- Reads each distinct token once, in the order in which the tokens first occur. -/
def parseMany (p : Parser ε) (cache : Cache) (tokens : List Text) : Traced ε Cache × Cache :=
  p.parseAfter .empty cache tokens

end Parser

end UtilityClass
