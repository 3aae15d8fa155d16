import Clausal.Dimacs
import Clausal.Text.Utf8

namespace Clausal.Dimacs

open Text

inductive FileError where
  | undecodable (e : DecodeError)
  | malformed (e : ParseError)

/-- The lines that have ended before the cut. A carriage return at the cut could be half a line
end. -/
def endedLines (text : List Char) : List (List Char) :=
  let text := if text.getLast? = some '\r' then text.dropLast else text
  (cutLines endsFileLine [] text).1

def pieceSize : Nat := 8192

/-- Where the piece begins that holds a position. Behind the last byte there is an empty piece. -/
def pieceStart (size position : Nat) : Nat :=
  if position < size then position / pieceSize * pieceSize else size

/-- What comes of a file with a fault. The lines before the faulty piece are read as usual;
positions count from the first byte of that piece, or of a character that an earlier piece left
open. -/
def parseFaulty (bytes : List UInt8) (fault : DecodeError) : Except FileError (Formula Variable) :=
  let start := pieceStart bytes.length fault.certain
  let before := decode (bytes.take start)
  let ended := endedLines before.text
  match parseLines ended with
  | .error e => .error (.malformed e)
  | .ok f =>
    if ended.any (fun l => lineKind (trim l) = .stop) then .ok f
    else
      let origin := match before.error with
        | some e => e.first
        | none => start
      .error (.undecodable (fault.countFrom origin))

def parseFile (bytes : List UInt8) : Except FileError (Formula Variable) :=
  let decoded := decode bytes
  match decoded.error with
  | none => (parseLines (lines endsFileLine decoded.text)).mapError .malformed
  | some e => parseFaulty bytes e

end Clausal.Dimacs
