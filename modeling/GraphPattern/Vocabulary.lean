/-!
# Vocabulary

The IRIs of the RDF and XML Schema vocabularies that have a meaning of their own here.
-/

namespace GraphPattern.Vocabulary

/-- The class membership property, written `a` in shorthand. -/
def rdfType : String := "http://www.w3.org/1999/02/22-rdf-syntax-ns#type"

/-- The member that a list node holds. -/
def rdfFirst : String := "http://www.w3.org/1999/02/22-rdf-syntax-ns#first"

/-- The list that follows a list node. -/
def rdfRest : String := "http://www.w3.org/1999/02/22-rdf-syntax-ns#rest"

/-- The empty list. -/
def rdfNil : String := "http://www.w3.org/1999/02/22-rdf-syntax-ns#nil"

/-- The datatype of simple literals. -/
def xsdString : String := "http://www.w3.org/2001/XMLSchema#string"

/-- The datatype of whole numbers. -/
def xsdInteger : String := "http://www.w3.org/2001/XMLSchema#integer"

/-- The datatype of numbers with a decimal point. -/
def xsdDecimal : String := "http://www.w3.org/2001/XMLSchema#decimal"

/-- The datatype of numbers with an exponent. -/
def xsdDouble : String := "http://www.w3.org/2001/XMLSchema#double"

/-- The datatype of truth values. -/
def xsdBoolean : String := "http://www.w3.org/2001/XMLSchema#boolean"

end GraphPattern.Vocabulary
