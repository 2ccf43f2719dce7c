namespace AngularAtlas

structure Issue where
  file : String
  message : String
deriving Repr, DecidableEq, Inhabited

end AngularAtlas
