import OntologyStructs.Dump
import OntologyStructs.Files.Work

namespace OntologyStructs.Dump

variable (o : Ontology) (c : Children)

def record (message : Text) : Record := ⟨.info, .dumps, message⟩

def saveResolved (p : Path) : FileWork FileError Unit := do
  FileWork.tell [record ("Exporting resolved graph to JSON: " ++ p.toText)]
  FileWork.save p ((resolved o c).pieces "\t" 0)
  FileWork.tell [record ("JSON export completed: " ++ Text.ofNat o.nodes.length ++ " nodes")]

def saveNodeLink (p : Path) : FileWork FileError Unit := do
  FileWork.tell [record ("Exporting child graph to node-link JSON: " ++ p.toText)]
  FileWork.save p ((nodeLink o c).pieces "  " 0)
  FileWork.tell [record ("Node-link export completed: " ++ Text.ofNat o.size ++ " nodes, "
    ++ Text.ofNat (o.edges c).length ++ " edges")]

end OntologyStructs.Dump
